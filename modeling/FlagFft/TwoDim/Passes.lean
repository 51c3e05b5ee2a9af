import FlagFft.Batch
import FlagFft.Library.Dft

/-! The passes of a two-dimensional schedule as functions of one batch element: rows, columns, and
the transposes that turn columns into rows. -/
namespace FlagFft.TwoDim
open Library.Dft Library.Indexing

variable {R : Type*}

/- A (rows, cols) block becomes a (cols, rows) block. -/
def transposeRow (rows cols : ℕ) (x : ℕ → R) (o : ℕ) : R := x (o % rows * cols + o / rows)

/- Rows of `nIn` elements become rows of `nOut` elements. -/
def blockRows (nIn nOut : ℕ) (f : (ℕ → R) → ℕ → R) (x : ℕ → R) (o : ℕ) : R :=
  f (fun j => x (o / nOut * nIn + j)) (o % nOut)

/- Every one of `n1` columns transformed on its own. -/
def columns (n1 : ℕ) (f : (ℕ → R) → ℕ → R) (x : ℕ → R) (o : ℕ) : R := f (fun j => x (j * n1 + o % n1)) (o / n1)

theorem transposeLocal {rows cols : ℕ} : RowLocal (rows * cols) (cols * rows) (transposeRow (R := R) rows cols) := by
  intro x y same o ho
  have positive : 0 < rows := Nat.pos_of_mul_pos_left (Nat.zero_lt_of_lt ho)
  have inside : o / rows < cols := Nat.div_lt_of_lt_mul (by rwa [Nat.mul_comm] at ho)
  exact same _ (mulAddLt (Nat.mod_lt o positive) inside)

theorem blockRowsLocal {nIn nOut group : ℕ} {f : (ℕ → R) → ℕ → R} (rowLocal : RowLocal nIn nOut f) :
    RowLocal (group * nIn) (group * nOut) (blockRows nIn nOut f) := by
  intro x y same o ho
  have positive : 0 < nOut := Nat.pos_of_mul_pos_left (Nat.zero_lt_of_lt ho)
  have inside : o / nOut < group := Nat.div_lt_of_lt_mul (by rwa [Nat.mul_comm] at ho)
  exact rowLocal _ _ (fun j hj => same _ (mulAddLt inside hj)) _ (Nat.mod_lt o positive)

theorem columnsLocal {n0 n1 : ℕ} {f : (ℕ → R) → ℕ → R} (rowLocal : RowLocal n0 n0 f) :
    RowLocal (n0 * n1) (n0 * n1) (columns n1 f) := by
  intro x y same o ho
  have positive : 0 < n1 := Nat.pos_of_mul_pos_left (Nat.zero_lt_of_lt ho)
  have inside : o / n1 < n0 := Nat.div_lt_of_lt_mul (by rwa [Nat.mul_comm] at ho)
  exact rowLocal _ _ (fun j hj => same _ (mulAddLt hj (Nat.mod_lt o positive))) _ inside

/- Rows between two transposes are columns. -/
theorem transposedRows {n0 n1 o : ℕ} {f : (ℕ → R) → ℕ → R} (rowLocal : RowLocal n0 n0 f) (x : ℕ → R)
    (ho : o < n0 * n1) :
    transposeRow n1 n0 (blockRows n0 n0 f (transposeRow n0 n1 x)) o = columns n1 f x o := by
  have inside : o / n1 < n0 := Nat.div_lt_of_lt_mul (by rwa [Nat.mul_comm] at ho)
  unfold transposeRow blockRows columns
  rw [mulAddDiv inside, mulAddMod inside]
  refine rowLocal _ _ (fun j hj => ?_) _ inside
  simp only [mulAddDiv hj, mulAddMod hj]

/- Transforms of the rows, of which `h` frequencies are kept, and then of the columns. -/
theorem columnsOfRows {R : Type*} [CommRing R] {n0 n1 h o : ℕ} (w0 w1 : R) (x : ℕ → R) (fits : h ≤ n1)
    (ho : o < n0 * h) :
    columns h (dft n0 w0) (blockRows n1 h (dft n1 w1) x) o = dft2 n0 n1 w0 w1 x (o / h * n1 + o % h) := by
  have positive : 0 < h := Nat.pos_of_mul_pos_left (Nat.zero_lt_of_lt ho)
  have inside : o % h < h := Nat.mod_lt o positive
  rw [← dft2Split (inside.trans_le fits)]
  refine dftCongr fun j _ => ?_
  unfold blockRows
  rw [mulAddDiv inside, mulAddMod inside]

/- Where element `k` of column `r % n1` of batch element `r / n1` lies. -/
def columnLayout (p : Address) (n0 n1 : ℕ) : Layout := fun r k => p.row (n0 * n1) (r / n1) (k * n1 + r % n1)

def columnGrouping (n0 n1 : ℕ) : Grouping n1 n0 (n0 * n1) where
  place i k := k * n1 + i
  short o := o % n1
  element o := o / n1
  inside _ hi _ hk := mulAddLt hk hi
  member o ho := by
    have positive : 0 < n1 := Nat.pos_of_mul_pos_left (Nat.zero_lt_of_lt ho)
    refine ⟨Nat.mod_lt o positive, Nat.div_lt_of_lt_mul (by rwa [Nat.mul_comm] at ho), ?_⟩
    rw [Nat.mul_comm]
    exact Nat.div_add_mod o n1

section Run
variable {op : Memory R → Except Failure (Memory R)} {scratch : Address → Prop} {src dst : Address}
  {n0 n1 batch : ℕ} {f : (ℕ → R) → ℕ → R}

theorem columnsRun (ok : LayoutRun op scratch (columnLayout src n0 n1) (columnLayout dst n0 n1) n0 (batch * n1) f) :
    RowRun op scratch src dst (n0 * n1) (n0 * n1) batch (columns n1 f) := by
  have place (p : Address) : ∀ b, ∀ i < n1, ∀ k,
      columnLayout p n0 n1 (b * n1 + i) k = p.row (n0 * n1) b (k * n1 + i) := by
    intro b i hi k
    unfold columnLayout
    rw [mulAddDiv hi, mulAddMod hi]
  exact ok.regroup (columnGrouping n0 n1) (fun i j => j * n1 + i) (place src) (place dst)

theorem blockRowsRun {nIn nOut group : ℕ} (ok : RowRun op scratch src dst nIn nOut (batch * group) f) :
    RowRun op scratch src dst (group * nIn) (group * nOut) batch (blockRows nIn nOut f) :=
  ok.regroup (blockGrouping group nOut) (fun i j => i * nIn + j) (fun _ _ _ _ => Address.rowGroup)
    (fun _ _ _ _ => Address.rowGroup)

end Run

/- A transpose kernel for (rows, cols) blocks, between two buffers; `row` is the transpose of one block. -/
def Transposes (kernel : Address → Address → ℕ → Memory R → Memory R) (size : ℕ) (row : (ℕ → R) → ℕ → R) : Prop :=
  ∀ src dst batch, src.buffer ≠ dst.buffer → RowMap (kernel src dst batch) (fun _ => False) src dst size size batch row

end FlagFft.TwoDim
