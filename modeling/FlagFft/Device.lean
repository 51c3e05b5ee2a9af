import FlagFft.Library.Stores
import FlagFft.Library.Indexing
import Mathlib.Algebra.Group.Units.Defs
import Mathlib.Data.Nat.Log

/-! What host code and generated kernels share: device memory by buffer and element offset,
transform directions, and batched rows. -/
namespace FlagFft
open Library.Indexing Library.Stores

inductive Direction where
  | forward
  | inverse
  deriving DecidableEq, Repr

/- The sign of every angle: exp(-2 pi i / n) forward, its inverse for the inverse transform. -/
def Direction.root {R : Type*} [Monoid R] : Direction → Rˣ → R
  | .forward, w => w
  | .inverse, w => ↑w⁻¹

theorem Direction.rootPow {R : Type*} [Monoid R] {w : Rˣ} {n : ℕ} (root : w ^ n = 1) (direction : Direction) :
    direction.root w ^ n = 1 := by
  cases direction with
  | forward => rw [Direction.root, ← Units.val_pow_eq_pow_val, root, Units.val_one]
  | inverse => rw [Direction.root, ← Units.val_pow_eq_pow_val, inv_pow, root, inv_one, Units.val_one]

/- The results of a failed call; a successful one is FLAGFFT_SUCCESS. -/
inductive Failure where
  | invalidPlan
  | allocFailed
  | invalidType
  | invalidValue
  | internalError
  | execFailed
  | setupFailed
  | invalidSize
  | unalignedData
  | incompleteParameterList
  | invalidDevice
  | parseError
  | noWorkspace
  | notSupported
  deriving DecidableEq, Repr

structure Address where
  buffer : ℕ
  offset : ℕ
  deriving DecidableEq, Repr

abbrev Memory (R : Type*) := Address → R

def Address.at (p : Address) (index : ℕ) : Address := ⟨p.buffer, p.offset + index⟩

theorem Address.atInj {p : Address} {i j : ℕ} : p.at i = p.at j ↔ i = j := by
  simp [Address.at]

theorem Address.atApart {p q : Address} (apart : p.buffer ≠ q.buffer) (i j : ℕ) : p.at i ≠ q.at j := by
  simp [Address.at, apart]

theorem Address.atAt {p : Address} {i j : ℕ} : (p.at i).at j = p.at (i + j) := by
  simp [Address.at, Nat.add_assoc]

/- A transform runs in place, or between two buffers that do not overlap. -/
def Compatible (src dst : Address) : Prop := src = dst ∨ src.buffer ≠ dst.buffer

def ceilDiv (value divisor : ℕ) : ℕ := (value + divisor - 1) / divisor

theorem ltCeilDiv {value divisor index : ℕ} (positive : 0 < divisor) :
    index < ceilDiv value divisor ↔ index * divisor < value := by
  rw [ceilDiv, Nat.lt_iff_add_one_le, Nat.le_div_iff_mul_le positive, Nat.add_mul]
  omega

/- Smallest power of two that is at least the value. -/
def ceilPowerOfTwo (value : ℕ) : ℕ := 2 ^ Nat.clog 2 value

theorem leCeilPowerOfTwo (value : ℕ) : value ≤ ceilPowerOfTwo value :=
  Nat.le_pow_clog (by decide) value

/- Where element `k` of row `row` of a batch lies. -/
abbrev Layout := ℕ → ℕ → Address

/- Rows of `n` elements follow each other from `p`. -/
def Address.row (p : Address) (n : ℕ) : Layout := fun row k => p.at (row * n + k)

theorem Address.rowInj {p : Address} {n row row' k k' : ℕ} (hk : k < n) (hk' : k' < n) :
    p.row n row k = p.row n row' k' ↔ row = row' ∧ k = k' := by
  rw [Address.row, Address.row, Address.atInj]
  exact ⟨mulAddInj hk hk', fun ⟨h, h'⟩ => by rw [h, h']⟩

def Layout.Injective (layout : Layout) (n rows : ℕ) : Prop :=
  ∀ b < rows, ∀ b' < rows, ∀ k < n, ∀ k' < n, layout b k = layout b' k' → b = b' ∧ k = k'

theorem Address.strideInjective {p : Address} {stride n rows : ℕ} (fits : n ≤ stride) :
    (p.row stride).Injective n rows :=
  fun _ _ _ _ _ hk _ hk' same => (Address.rowInj (hk.trans_le fits) (hk'.trans_le fits)).mp same

theorem Address.rowInjective {p : Address} {n rows : ℕ} : (p.row n).Injective n rows :=
  Address.strideInjective le_rfl

/- In place or apart, an element of one row of the source is no element of another row. -/
theorem Compatible.rowApart {src dst : Address} (ok : Compatible src dst) {n row row' k k' : ℕ}
    (hk : k < n) (hk' : k' < n) (distinct : row ≠ row') : src.row n row k ≠ dst.row n row' k' := by
  rcases ok with rfl | apart
  · exact fun same => distinct ((Address.rowInj hk hk').mp same).1
  · exact Address.atApart apart _ _

/- The order in which the blocks of a grid run: any order that runs each block once. -/
structure Schedule where
  order : ℕ → List ℕ
  complete : ∀ grid, (order grid).Perm (List.range grid)

def ascending : Schedule := ⟨List.range, fun _ => List.Perm.refl _⟩

theorem Schedule.mem (schedule : Schedule) {grid p : ℕ} : p ∈ schedule.order grid ↔ p < grid := by
  rw [(schedule.complete grid).mem_iff, List.mem_range]

/- One pass of a schedule: the buffer it reads, the buffer it writes, the work between them. -/
structure Pass (α : Type*) where
  source : Address
  target : Address
  work : α

def Pass.between {α : Type*} (work : Address → Address → α) (source target : Address) : Pass α :=
  ⟨source, target, work source target⟩

/- Each pass reads what the pass before it wrote, and only the first one reads the input. -/
def Chained {α : Type*} (input : Address) : List (Pass α) → Prop
  | [] => True
  | pass :: rest => pass.source = input ∧ Chained pass.target rest

def copyDeviceToDevice {R : Type*} (dst src : Address) (count : ℕ) (m : Memory R) : Memory R := fun a =>
  if a.buffer = dst.buffer ∧ dst.offset ≤ a.offset ∧ a.offset < dst.offset + count then
    m (src.at (a.offset - dst.offset))
  else m a

theorem copyWrites {R : Type*} {dst src : Address} {count i : ℕ} {m : Memory R} (h : i < count) :
    copyDeviceToDevice dst src count m (dst.at i) = m (src.at i) := by
  rw [copyDeviceToDevice, if_pos ⟨rfl, Nat.le_add_right _ _, Nat.add_lt_add_left h _⟩]
  simp [Address.at]

theorem copyFrame {R : Type*} {dst src : Address} {count : ℕ} {m : Memory R} {a : Address}
    (outside : ∀ i < count, a ≠ dst.at i) : copyDeviceToDevice dst src count m a = m a := by
  rw [copyDeviceToDevice, if_neg]
  rintro ⟨buffer, low, high⟩
  refine outside (a.offset - dst.offset) (by omega) ?_
  cases a
  simp only [Address.at, Address.mk.injEq] at *
  exact ⟨buffer, by omega⟩

end FlagFft
