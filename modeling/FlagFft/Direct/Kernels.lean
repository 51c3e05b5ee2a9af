import FlagFft.Kernel
import FlagFft.Library.Dft
import FlagFft.Library.Summation
import FlagFft.TwoDim.Passes

/-! Direct transforms: every line is multiplied by the matrix of the transform, a tile of lines and outputs in each
program. The forms differ in the tile, in the order of the sum and in where the lines lie; the result does not. -/
namespace FlagFft.Direct
open Library.Indexing Library.Stores Library.Dft Library.Summation FlagFft.TwoDim

section Tables
variable {R : Type*} [CommRing R] {w : R} {n : ℕ}

/- Entry k * n + j of build_dft_matrix. -/
def buildDftMatrix (w : R) (n index : ℕ) : R := w ^ (index / n * (index % n))

/- Entry input * n + output of build_raw_cube_dft_tables. -/
def buildRawCubeDftTables (w : R) (n index : ℕ) : R := buildDftMatrix w n (index % n * n + index / n)

theorem matrixEntry {k j : ℕ} (inside : j < n) : buildDftMatrix w n (k * n + j) = w ^ (k * j) := by
  rw [buildDftMatrix, mulAddDiv inside, mulAddMod inside]

theorem cubeEntry {j k : ℕ} (input : j < n) (output : k < n) : buildRawCubeDftTables w n (j * n + k) = w ^ (k * j) := by
  rw [buildRawCubeDftTables, mulAddDiv output, mulAddMod output, matrixEntry input]

/- The matrix is symmetric, so it may be read along its rows or along its columns. -/
theorem matrixSum {x : ℕ → R} {entry : ℕ → R} {k : ℕ} (entries : ∀ j < n, entry j = w ^ (k * j)) :
    ∑ j ∈ Finset.range n, x j * entry j = dft n w x k :=
  Finset.sum_congr rfl fun j inside => by rw [entries j (Finset.mem_range.mp inside), Nat.mul_comm]

end Tables

/- A program (x, y) works on the lines from x * lines on and the outputs from y * outputs on. -/
structure LineKernel (R : Type*) where
  lines : ℕ
  outputs : ℕ
  gridX : ℕ
  gridY : ℕ
  length : ℕ
  live : ℕ → ℕ → Bool
  value : (ℕ → R) → ℕ → R

namespace LineKernel
variable {R : Type*} (kernel : LineKernel R)

def line (p l : ℕ) : ℕ := programX kernel.gridX p * kernel.lines + l

def output (p o : ℕ) : ℕ := programY kernel.gridX p * kernel.outputs + o

def element (src dst : Layout) : ElementKernel R (ℕ × ℕ) where
  threads p := ((List.range kernel.lines).product (List.range kernel.outputs)).filter fun (l, o) =>
    kernel.live (programX kernel.gridX p) (kernel.line p l) && decide (kernel.output p o < kernel.length)
  address p := fun (l, o) => dst (kernel.line p l) (kernel.output p o)
  value m p := fun (l, o) => kernel.value (fun j => m (src (kernel.line p l) j)) (kernel.output p o)

def launch (src dst : Layout) (schedule : Schedule) : Memory R → Memory R :=
  (kernel.element src dst).launch (kernel.gridX * kernel.gridY) schedule

/- The programs cover the lines of a batch and the outputs of a line. -/
structure Covers (nbatch : ℕ) : Prop where
  lines : 0 < kernel.lines
  outputs : 0 < kernel.outputs
  live : ∀ x l, l < kernel.lines → (kernel.live x (x * kernel.lines + l) = true ↔ x * kernel.lines + l < nbatch)
  reach : ∀ b < nbatch, b / kernel.lines < kernel.gridX
  wide : ∀ k < kernel.length, k / kernel.outputs < kernel.gridY

def find (b k : ℕ) : ℕ × (ℕ × ℕ) :=
  (k / kernel.outputs * kernel.gridX + b / kernel.lines, (b % kernel.lines, k % kernel.outputs))

variable {kernel} {src dst : Layout} {nbatch : ℕ} {row : (ℕ → R) → ℕ → R}

theorem memThreads {p l o : ℕ} : (l, o) ∈ (kernel.element src dst).threads p ↔ (l < kernel.lines ∧ o < kernel.outputs) ∧
    kernel.live (programX kernel.gridX p) (kernel.line p l) = true ∧ kernel.output p o < kernel.length := by
  unfold element
  simp only [List.mem_filter, List.pair_mem_product, List.mem_range, Bool.and_eq_true, decide_eq_true_eq]

theorem writes (covers : kernel.Covers nbatch) (value : ∀ x, ∀ k < kernel.length, kernel.value x k = row x k) :
    (kernel.element src dst).Writes (kernel.gridX * kernel.gridY) src dst kernel.length nbatch row kernel.find := by
  constructor
  · intro p _
    exact (List.nodup_range.product List.nodup_range).filter _
  · rintro p _ ⟨l, o⟩ thread
    obtain ⟨⟨lane, column⟩, live, inside⟩ := memThreads.mp thread
    refine ⟨kernel.line p l, (covers.live _ _ lane).mp live, kernel.output p o, inside, ?_, rfl, fun m => value _ _ inside⟩
    have program : programY kernel.gridX p * kernel.gridX + programX kernel.gridX p = p := by
      unfold programX programY
      rw [Nat.mul_comm, Nat.div_add_mod]
    unfold find line output
    rw [mulAddDiv lane, mulAddMod lane, mulAddDiv column, mulAddMod column, program]
  · intro b hb k hk
    have x := covers.reach b hb
    have y := covers.wide k hk
    have lane : kernel.line (kernel.find b k).1 (b % kernel.lines) = b := by
      unfold line find programX
      rw [mulAddMod x, Nat.mul_comm, Nat.div_add_mod]
    have column : kernel.output (kernel.find b k).1 (k % kernel.outputs) = k := by
      unfold output find programY
      rw [mulAddDiv x, Nat.mul_comm, Nat.div_add_mod]
    have live : kernel.live (programX kernel.gridX (kernel.find b k).1) b = true := by
      have row := (covers.live (b / kernel.lines) (b % kernel.lines) (Nat.mod_lt b covers.lines)).mpr
      rw [Nat.mul_comm, Nat.div_add_mod] at row
      unfold find programX
      rw [mulAddMod x]
      exact row hb
    refine ⟨?_, ?_, ?_⟩
    · rw [Nat.mul_comm kernel.gridX]
      exact mulAddLt y x
    · refine memThreads.mpr ⟨⟨Nat.mod_lt b covers.lines, Nat.mod_lt k covers.outputs⟩, ?_⟩
      rw [lane, column]
      exact ⟨live, hk⟩
    · change dst (kernel.line _ (b % kernel.lines)) (kernel.output _ (k % kernel.outputs)) = _
      rw [lane, column]

end LineKernel

/- How the products of a line are summed; the compensated loop reads the matrix along its rows. -/
inductive Reduction where
  | tiles
  | compensated
  deriving DecidableEq, Repr

section Forms
variable {R : Type*} [CommRing R] (n : ℕ) (table : ℕ → R) (nbatch : ℕ)

def Reduction.value : Reduction → (ℕ → R) → ℕ → R
  | .tiles, x, k => tileSum 32 n fun j => x j * table (j * n + k)
  | .compensated, x, k => compensatedSum n fun j => x j * table (k * n + j)

/- The Cube reduces 16 inputs at a time and reads the transposed table. -/
def cubeValue (x : ℕ → R) (k : ℕ) : R := tileSum 16 n fun j => x j * table (j * n + k)

/- direct_dft and direct_dft_strided: one line in each program -/
def directDftKernel (reduction : Reduction) : LineKernel R where
  lines := 1
  outputs := ceilPowerOfTwo n
  gridX := ceilDiv nbatch 1
  gridY := 1
  length := n
  live x _ := x < nbatch
  value := reduction.value n table

/- direct_dft_cube and direct_dft_cube_strided -/
def cubeDftKernel : LineKernel R where
  lines := 16
  outputs := 2 ^ (n - 1).size
  gridX := ceilDiv nbatch 16
  gridY := 1
  length := n
  live _ line := line < nbatch
  value := cubeValue n table

/- direct_dft_cube_transposed -/
def cubeTransposedKernel : LineKernel R where
  lines := 16
  outputs := 64
  gridX := ceilDiv nbatch 16
  gridY := 1
  length := 64
  live _ line := line < nbatch
  value := cubeValue 64 table

/- direct_dft_cube_2d_row -/
def cubeRowKernel : LineKernel R where
  lines := 16
  outputs := 16
  gridX := ceilDiv nbatch 16
  gridY := 4
  length := 64
  live _ line := line < nbatch
  value := cubeValue 64 table

/- direct_dft_cube_2d_col: four tiles of columns in each matrix, and the table is read along its rows -/
def cubeColKernel : LineKernel R where
  lines := 16
  outputs := 16
  gridX := ceilDiv nbatch 16
  gridY := 4
  length := 64
  live x _ := x / 4 < nbatch / 64
  value x k := tileSum 16 64 fun j => table (k * 64 + j) * x j

end Forms

end FlagFft.Direct
