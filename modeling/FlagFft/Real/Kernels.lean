import FlagFft.Kernel
import Mathlib.Algebra.Field.Defs

/-! The kernels at the boundary of real transforms. Memory holds scalars, a complex element is two of
them; a program works on a tile of rows and columns of the batch. -/
namespace FlagFft.Real
open Library.Indexing Library.Stores

/- A (columns, rows-per-block) tile: rows shorter than a program are packed. -/
def packedLayout (cols elements : ℕ) : ℕ × ℕ :=
  let blockCols := min elements (ceilPowerOfTwo cols)
  (blockCols, max 1 (elements / blockCols))

/- A row-wise kernel. A thread stores `parts` scalars of its column, computed from the row it reads;
lanes outside the mask store nothing, so their clamped indices are left out. -/
structure TileKernel (S : Type*) where
  cols : ℕ
  parts : ℕ
  elements : ℕ
  inStride : ℕ
  outStride : ℕ
  value : (ℕ → S) → ℕ → ℕ → S

namespace TileKernel
variable {S : Type*} (kernel : TileKernel S)

def blockCols : ℕ := (packedLayout kernel.cols kernel.elements).1

def rowsPerBlock : ℕ := (packedLayout kernel.cols kernel.elements).2

/- The host covers the columns in blocks of 256. -/
def gridX : ℕ := ceilDiv kernel.cols 256

def gridRows (rows : ℕ) : ℕ := ceilDiv rows kernel.rowsPerBlock

def row (p slot : ℕ) : ℕ := programY kernel.gridX p * kernel.rowsPerBlock + slot

def col (p lane : ℕ) : ℕ := programX kernel.gridX p * kernel.blockCols + lane

/- Thread (slot, lane, part) of program `p`. -/
def element (inPtr outPtr : Address) (nbatch : ℕ) : ElementKernel S (ℕ × ℕ × ℕ) where
  threads p :=
    ((List.range kernel.rowsPerBlock).product
      ((List.range kernel.blockCols).product (List.range kernel.parts))).filter fun (slot, lane, _) =>
        kernel.row p slot < nbatch && kernel.col p lane < kernel.cols
  address p := fun (slot, lane, part) =>
    outPtr.row kernel.outStride (kernel.row p slot) (kernel.col p lane * kernel.parts + part)
  value m p := fun (slot, lane, part) =>
    kernel.value (fun j => m (inPtr.row kernel.inStride (kernel.row p slot) j)) (kernel.col p lane) part

def launch (inPtr outPtr : Address) (nbatch : ℕ) (schedule : Schedule) : Memory S → Memory S :=
  (kernel.element inPtr outPtr nbatch).launch (kernel.gridX * kernel.gridRows nbatch) schedule

variable {kernel} {inPtr outPtr : Address} {nbatch p slot lane part : ℕ}

theorem memThreads : (slot, lane, part) ∈ (kernel.element inPtr outPtr nbatch).threads p ↔
    (slot < kernel.rowsPerBlock ∧ lane < kernel.blockCols ∧ part < kernel.parts) ∧
      kernel.row p slot < nbatch ∧ kernel.col p lane < kernel.cols := by
  unfold element
  simp only [List.mem_filter, List.pair_mem_product, List.mem_range, Bool.and_eq_true, decide_eq_true_eq]

theorem rowsPerBlockPositive : 0 < kernel.rowsPerBlock :=
  Nat.lt_of_lt_of_le Nat.one_pos (le_max_left _ _)

theorem blockColsPositive (wide : 256 ≤ kernel.elements) : 0 < kernel.blockCols :=
  Nat.lt_min.mpr ⟨Nat.lt_of_lt_of_le (by decide) wide, Nat.two_pow_pos _⟩

/- A tile is as wide as a row, or at least as wide as a block of the host. -/
theorem colsCovered (wide : 256 ≤ kernel.elements) {c : ℕ} (hc : c < kernel.cols) :
    c / kernel.blockCols < kernel.gridX := by
  unfold gridX
  rw [ltCeilDiv (by decide)]
  by_cases narrow : c < kernel.blockCols
  · rw [Nat.div_eq_of_lt narrow]
    exact Nat.zero_mul 256 ▸ Nat.zero_lt_of_lt hc
  · have power : c < ceilPowerOfTwo kernel.cols := hc.trans_le (leCeilPowerOfTwo _)
    have block : 256 ≤ kernel.blockCols := by
      unfold blockCols packedLayout at narrow ⊢
      cases min_choice kernel.elements (ceilPowerOfTwo kernel.cols) with
      | inl program => simpa only [program] using wide
      | inr row =>
          simp only [row] at narrow
          exact absurd power narrow
    exact ((Nat.mul_le_mul_left _ block).trans (Nat.div_mul_le_self c _)).trans_lt hc

/- How a tile kernel covers the batch: element `k` of row `b` is part `k % parts` of column `k / parts`. -/
theorem writes (inPtr outPtr : Address) (nbatch : ℕ) (wide : 256 ≤ kernel.elements) {row : (ℕ → S) → ℕ → S}
    (value : ∀ x, ∀ c < kernel.cols, ∀ part < kernel.parts,
      kernel.value x c part = row x (c * kernel.parts + part)) :
    (kernel.element inPtr outPtr nbatch).Writes (kernel.gridX * kernel.gridRows nbatch) (inPtr.row kernel.inStride)
      (outPtr.row kernel.outStride) (kernel.cols * kernel.parts) nbatch row (fun b k =>
        (b / kernel.rowsPerBlock * kernel.gridX + k / kernel.parts / kernel.blockCols,
          (b % kernel.rowsPerBlock, k / kernel.parts % kernel.blockCols, k % kernel.parts))) := by
  have rows : 0 < kernel.rowsPerBlock := rowsPerBlockPositive
  have cols : 0 < kernel.blockCols := blockColsPositive wide
  constructor
  · intro p _
    exact (List.nodup_range.product (List.nodup_range.product List.nodup_range)).filter _
  · rintro p hp ⟨slot, lane, part⟩ ht
    obtain ⟨⟨hSlot, hLane, hPart⟩, hRow, hCol⟩ := memThreads.mp ht
    have program : kernel.row p slot / kernel.rowsPerBlock * kernel.gridX + kernel.col p lane / kernel.blockCols = p := by
      unfold TileKernel.row TileKernel.col
      rw [mulAddDiv hSlot, mulAddDiv hLane, programX, programY, Nat.mul_comm, Nat.div_add_mod]
    refine ⟨kernel.row p slot, hRow, kernel.col p lane * kernel.parts + part, mulAddLt hCol hPart, ?_, rfl, fun m => ?_⟩
    · simp only [mulAddDiv hPart, mulAddMod hPart, program]
      unfold TileKernel.row TileKernel.col
      rw [mulAddMod hSlot, mulAddMod hLane]
    · exact value _ _ hCol _ hPart
  · intro b hb k hk
    have hPart : k % kernel.parts < kernel.parts := Nat.mod_lt _ (Nat.pos_of_mul_pos_left (Nat.zero_lt_of_lt hk))
    have hCol : k / kernel.parts < kernel.cols := Nat.div_lt_of_lt_mul (by rwa [Nat.mul_comm] at hk)
    have hx := colsCovered wide hCol
    have hy : b / kernel.rowsPerBlock < kernel.gridRows nbatch :=
      (ltCeilDiv rows).mpr ((Nat.div_mul_le_self b _).trans_lt hb)
    have row : kernel.row (b / kernel.rowsPerBlock * kernel.gridX + k / kernel.parts / kernel.blockCols)
        (b % kernel.rowsPerBlock) = b := by
      unfold TileKernel.row programY
      rw [mulAddDiv hx, Nat.mul_comm, Nat.div_add_mod]
    have col : kernel.col (b / kernel.rowsPerBlock * kernel.gridX + k / kernel.parts / kernel.blockCols)
        (k / kernel.parts % kernel.blockCols) = k / kernel.parts := by
      unfold TileKernel.col programX
      rw [mulAddMod hx, Nat.mul_comm, Nat.div_add_mod]
    refine ⟨?_, ?_, ?_⟩
    · rw [Nat.mul_comm kernel.gridX]
      exact mulAddLt hy hx
    · rw [memThreads, row, col]
      exact ⟨⟨Nat.mod_lt _ rows, Nat.mod_lt _ cols, hPart⟩, hb, hCol⟩
    · change outPtr.row kernel.outStride (kernel.row _ _) (kernel.col _ _ * kernel.parts + k % kernel.parts) = _
      rw [row, col, Nat.mul_comm, Nat.div_add_mod]

/- The kernel stores `nOut` scalars of each row, the values of a row function. -/
structure Computes (kernel : TileKernel S) (nOut : ℕ) (row : (ℕ → S) → ℕ → S) : Prop where
  wide : 256 ≤ kernel.elements
  total : kernel.cols * kernel.parts = nOut
  fits : nOut ≤ kernel.outStride
  value : ∀ x, ∀ c < kernel.cols, ∀ part < kernel.parts, kernel.value x c part = row x (c * kernel.parts + part)

theorem Computes.launchMap {nOut : ℕ} {row : (ℕ → S) → ℕ → S} (ok : kernel.Computes nOut row) (inPtr outPtr : Address)
    (apart : inPtr.buffer ≠ outPtr.buffer) (nbatch : ℕ) (schedule : Schedule) (scratch : Address → Prop) :
    LayoutMap (kernel.launch inPtr outPtr nbatch schedule) scratch (inPtr.row kernel.inStride)
      (outPtr.row kernel.outStride) nOut nbatch row := by
  have writes := writes inPtr outPtr nbatch ok.wide ok.value
  rw [ok.total] at writes
  exact writes.layoutMap (Address.strideInjective ok.fits) (fun _ _ _ _ => Address.atApart apart _ _) schedule scratch

end TileKernel

section Formulas
variable {S : Type*} [Field S]

/- Complex element `k` of a row of scalars. -/
def pair (x : ℕ → S) (k : ℕ) : S × S := (x (2 * k), x (2 * k + 1))

/- One part of a complex value. -/
def part (value : S × S) (index : ℕ) : S := if index = 0 then value.1 else value.2

def realToComplex (n elements inputDistance : ℕ) : TileKernel S where
  cols := n
  parts := 2
  elements := elements
  inStride := inputDistance
  outStride := 2 * n
  value x k := part (x k, 0)

def r2cHalfPack (n elements outputDistance : ℕ) : TileKernel S where
  cols := n / 2 + 1
  parts := 2
  elements := elements
  inStride := 2 * n
  outStride := 2 * outputDistance
  value x k := part (pair x k)

def r2cPackedPostprocess (n : ℕ) (twiddle : ℕ → S × S) (outputDistance : ℕ) : TileKernel S where
  cols := n / 2 + 1
  parts := 2
  elements := 256
  inStride := 2 * (n / 2)
  outStride := 2 * outputDistance
  value x k := part <|
    let packed := n / 2
    let (ar, ai) := pair x (k % packed)
    let (br, bi) := ((pair x ((packed - k) % packed)).1, -(pair x ((packed - k) % packed)).2)
    let (wr, wi) := twiddle k
    let (sumR, sumI) := (ar + br, ai + bi)
    let (diffR, diffI) := (ar - br, ai - bi)
    let prodR := diffR * wr - diffI * wi
    let prodI := diffI * wr + diffR * wi
    (1 / (2 : ℕ) * (sumR + prodI), 1 / (2 : ℕ) * (sumI - prodR))

def c2rPackedPreprocess (n : ℕ) (twiddle : ℕ → S × S) (inputDistance : ℕ) : TileKernel S where
  cols := n / 2
  parts := 2
  elements := 256
  inStride := 2 * inputDistance
  outStride := 2 * (n / 2)
  value x k := part <|
    let q := n / 2 - k
    let (xr, xi) := pair x k
    let (qr, qi) := ((pair x q).1, -(pair x q).2)
    let (wr, wi) := twiddle k
    let (sumR, sumI) := (xr + qr, xi + qi)
    let (diffR, diffI) := (xr - qr, xi - qi)
    -- the difference times conj(W), then times i; no factor 1/2
    let prodR := diffR * wr + diffI * wi
    let prodI := diffI * wr - diffR * wi
    (sumR - prodI, sumI + prodR)

def compactToHermitianFull (n elements inputDistance : ℕ) : TileKernel S where
  cols := n
  parts := 2
  elements := elements
  inStride := 2 * inputDistance
  outStride := 2 * n
  value x k := part <|
    let half := n / 2 + 1
    let source := if k < half then k else n - k
    let (xr, xi) := pair x source
    let signed := if k < half then xi else -xi
    (xr, if k = 0 ∨ (n % 2 = 0 ∧ k = n / 2) then 0 else signed)

def complexToReal (n elements outputDistance : ℕ) : TileKernel S where
  cols := n
  parts := 1
  elements := elements
  inStride := 2 * n
  outStride := outputDistance
  value x k _ := (pair x k).1

end Formulas

end FlagFft.Real
