import FlagFft.Library.Interleave
import FlagFft.Library.Radix2
import FlagFft.Stockham.Paired
import Mathlib.Tactic.IntervalCases

/-! The fused 16-cube launch. A program computes one output plane from the whole input cube: the outer transform
directly, the two inner ones in registers. -/
namespace FlagFft.ThreeDim.FusedCube
open Library Library.Interleave Library.Dft Library.Indexing
open Library.Radix2 (reverse butterfly stages stagesDft stagesSucc stagesCongr butterflyCongr)
open FlagFft.Stockham (directionRoot stageTwiddle)
open FlagFft.Real (forwardRoot forwardRootPow)
open scoped ComplexConjugate

/- The kernel of complex cubes, or of real cubes with half spectra. -/
inductive Form where
  | complex (direction : Direction)
  | real

def Form.direction : Form → Direction
  | .complex direction => direction
  | .real => .forward

section Registers

variable (twiddle : ℕ → ℂ)

def reverseDigit (digit : ℕ) : ℕ := (List.range 4).foldl (fun rev bit => (rev <<< 1) ||| ((digit >>> bit) &&& 1)) 0

def reversed (idx : ℕ) : ℕ := reverseDigit (idx / 16) * 16 + reverseDigit (idx % 16)

/- quarter_r and quarter_i -/
def quarter (b : ℂ) : Direction → ℂ
  | .forward => ⟨b.im, -b.re⟩
  | .inverse => ⟨-b.im, b.re⟩

def tableTwist (stage digit : ℕ) (b : ℂ) : ℂ := twiddle ((digit &&& ((1 <<< stage) - 1)) * (16 >>> (stage + 1))) * b

/- The complex kernel multiplies by no table in its first two stages. -/
def quarterTwist (direction : Direction) (stage digit : ℕ) (b : ℂ) : ℂ :=
  if stage = 0 then b
  else if stage = 1 then (if digit &&& 1 ≠ 0 then quarter b direction else b)
  else tableTwist twiddle stage digit b

def axisStage (twist : ℕ → ℕ → ℂ → ℂ) (scale : ℕ) (digit : ℕ → ℕ) (x : ℕ → ℂ) (stage idx : ℕ) : ℂ :=
  let partner := idx ^^^ (scale <<< stage)
  let upper := digit idx &&& (1 <<< stage) ≠ 0
  let a := if upper then x partner else x idx
  let b := if upper then x idx else x partner
  let t := twist stage (digit idx) b
  if upper then a - t else a + t

def columnStages (twist : ℕ → ℕ → ℂ → ℂ) (count : ℕ) (x : ℕ → ℂ) : ℕ → ℂ :=
  (List.range count).foldl (axisStage twist 1 (· % 16)) x

def rowStages (twist : ℕ → ℕ → ℂ → ℂ) (count : ℕ) (x : ℕ → ℂ) : ℕ → ℂ :=
  (List.range count).foldl (axisStage twist 16 (· / 16)) x

def planeFft (twist : ℕ → ℕ → ℂ → ℂ) (x : ℕ → ℂ) : ℕ → ℂ := rowStages twist 4 (columnStages twist 4 x)

/- The outer transform of one element of a plane. -/
def outer (outputPlane : ℕ) (plane : ℕ → ℂ) : ℂ :=
  (List.range 16).foldl (fun x inputPlane => x + twiddle (inputPlane * outputPlane % 16) * plane inputPlane) 0

end Registers

section Programs
variable (twiddle : ℕ → ℂ) (inPtr outPtr : ℕ)

def complexSource (pid inputPlane idx : ℕ) : ℕ := inPtr + ((pid / 16 * 16 + inputPlane) * 256 + reversed idx) * 2

def complexRegisters (direction : Direction) (pid : ℕ) (seen : ℕ → ℝ) : ℕ → ℂ :=
  planeFft (quarterTwist twiddle direction) fun idx => outer twiddle (pid % 16) fun inputPlane =>
    ⟨seen (complexSource inPtr pid inputPlane idx), seen (complexSource inPtr pid inputPlane idx + 1)⟩

/- fused_16_cube_fft_kernel of emit_fused_16_cube_kernel -/
def complexProgram (direction : Direction) (pid : ℕ) : Program ℕ ℝ where
  loads := (List.range 16).flatMap fun inputPlane => (List.range 256).flatMap fun idx =>
    [complexSource inPtr pid inputPlane idx, complexSource inPtr pid inputPlane idx + 1]
  stores := (List.range 256).flatMap fun idx =>
    let dst := outPtr + ((pid / 16 * 16 + pid % 16) * 256 + idx) * 2
    [(dst, fun seen => (complexRegisters twiddle inPtr direction pid seen idx).re),
      (dst + 1, fun seen => (complexRegisters twiddle inPtr direction pid seen idx).im)]

def realSource (pid i0 idx : ℕ) : ℕ := inPtr + pid / 16 * 4096 + i0 * 256 + idx

def realRegisters (pid : ℕ) (seen : ℕ → ℝ) : ℕ → ℂ :=
  planeFft (tableTwist twiddle) fun idx => outer twiddle (pid % 16) fun i0 => ⟨seen (realSource inPtr pid i0 (reversed idx)), 0⟩

/- fused_16_cube_fft_kernel of emit_fused_16_real_cube_kernel; the stores are masked by keep. -/
def realProgram (pid : ℕ) : Program ℕ ℝ where
  loads := (List.range 16).flatMap fun i0 => (List.range 256).map fun idx => realSource inPtr pid i0 idx
  stores := (List.range 256).flatMap fun idx =>
    let dst := outPtr + (pid / 16 * 16 * 16 * 9 + pid % 16 * 16 * 9 + idx / 16 * 9 + idx % 16) * 2
    if idx % 16 ≤ 8 then
      [(dst, fun seen => (realRegisters twiddle inPtr pid seen idx).re),
        (dst + 1, fun seen => (realRegisters twiddle inPtr pid seen idx).im)]
    else []

end Programs

section Values

variable {direction : Direction}

theorem reverseDigitBits : ∀ digit < 16, reverseDigit digit = reverse 4 digit := by decide

theorem reverseDigitTwice : ∀ digit < 16, reverseDigit digit < 16 ∧ reverseDigit (reverseDigit digit) = digit := by decide

theorem directionRootQuarter (b : ℂ) : directionRoot direction 16 ^ 4 * b = quarter b direction := by
  have forward : forwardRoot 16 ^ 4 = -Complex.I := by
    rw [forwardRootPow, ← Complex.exp_neg_pi_div_two_mul_I]
    congr 1
    push_cast
    ring
  cases direction with
  | forward =>
      simp only [directionRoot, forward, quarter]
      apply Complex.ext <;> simp
  | inverse =>
      simp only [directionRoot, ← map_pow, forward, quarter]
      apply Complex.ext <;> simp

theorem shiftedHalf {stage : ℕ} (inside : stage < 4) : 16 >>> (stage + 1) = 2 ^ (4 - (stage + 1)) := by
  interval_cases stage <;> rfl

/- Inside the table the twist of a stage is a power of the root. -/
theorem tableTwistPower {stage : ℕ} (inside : stage < 4) (digit : ℕ) (b : ℂ) :
    tableTwist (stageTwiddle direction 16) stage digit b =
      directionRoot direction 16 ^ (digit % 2 ^ stage * 2 ^ (4 - (stage + 1))) * b := by
  have masked : digit &&& ((1 <<< stage) - 1) = digit % 2 ^ stage := by
    rw [Nat.one_shiftLeft, Nat.and_two_pow_sub_one_eq_mod]
  have within : digit % 2 ^ stage * 2 ^ (4 - (stage + 1)) < 16 := by
    interval_cases stage <;> omega
  rw [tableTwist, masked, shiftedHalf inside, stageTwiddle, if_pos within]

theorem quarterTwistTable {stage : ℕ} (inside : stage < 4) (digit : ℕ) (b : ℂ) :
    quarterTwist (stageTwiddle direction 16) direction stage digit b = tableTwist (stageTwiddle direction 16) stage digit b := by
  rw [tableTwistPower inside]
  unfold quarterTwist
  split_ifs with first second odd
  · subst first
    simp [Nat.mod_one]
  · subst second
    rw [Nat.and_one_is_mod] at odd
    rw [show digit % 2 ^ 1 * 2 ^ (4 - (1 + 1)) = 4 by omega, directionRootQuarter]
  · subst second
    rw [Nat.and_one_is_mod] at odd
    rw [show digit % 2 ^ 1 * 2 ^ (4 - (1 + 1)) = 0 by omega, pow_zero, one_mul]
  · rw [tableTwistPower inside]

theorem upperBit (digit stage : ℕ) : digit &&& (1 <<< stage) ≠ 0 ↔ digit / 2 ^ stage % 2 = 1 := by
  rw [Nat.one_shiftLeft, Nat.and_two_pow, ne_eq, Nat.mul_eq_zero, not_or, Nat.testBit_eq_decide_div_mod_eq]
  simp

/- One stage along an axis, where the digits of the axis are read at a fixed other digit. -/
theorem axisStageButterfly {twist : ℕ → ℕ → ℂ → ℂ} {stage scale : ℕ} {digit place : ℕ → ℕ} {x : ℕ → ℂ} {i : ℕ}
    (inside : stage < 4) (twisted : ∀ d b, twist stage d b = tableTwist (stageTwiddle direction 16) stage d b)
    (read : digit (place i) = i) (partner : place i ^^^ (scale <<< stage) = place (Radix2.partner i stage)) :
    axisStage twist scale digit x stage (place i) =
      butterfly 4 (directionRoot direction 16) stage (fun d => x (place d)) i := by
  simp only [axisStage, butterfly, read, partner, upperBit, twisted, tableTwistPower inside]

theorem columnPartner {row col stage : ℕ} (inside : col < 16) (small : stage < 4) :
    (row * 16 + col) ^^^ (1 <<< stage) = row * 16 + Radix2.partner col stage := by
  have power : 2 ^ stage < 2 ^ 4 := Nat.pow_lt_pow_right one_lt_two small
  have low := @Nat.xor_mod_two_pow (row * 16 + col) (2 ^ stage) 4
  have high := @Nat.xor_div_two_pow (row * 16 + col) (2 ^ stage) 4
  rw [Nat.mod_eq_of_lt power, show (row * 16 + col) % 2 ^ 4 = col by omega] at low
  rw [Nat.div_eq_of_lt power, show (row * 16 + col) / 2 ^ 4 = row by omega, Nat.xor_zero] at high
  rw [Nat.one_shiftLeft, Radix2.partner]
  omega

theorem rowPartner {row col stage : ℕ} (inside : col < 16) :
    (row * 16 + col) ^^^ (16 <<< stage) = Radix2.partner row stage * 16 + col := by
  have shifted : 16 <<< stage = 2 ^ stage * 2 ^ 4 := by rw [Nat.shiftLeft_eq, Nat.mul_comm, show 2 ^ 4 = 16 from rfl]
  have low := @Nat.xor_mod_two_pow (row * 16 + col) (2 ^ stage * 2 ^ 4) 4
  have high := @Nat.xor_div_two_pow (row * 16 + col) (2 ^ stage * 2 ^ 4) 4
  rw [Nat.mul_mod_left, Nat.xor_zero, show (row * 16 + col) % 2 ^ 4 = col by omega] at low
  rw [Nat.mul_div_cancel _ (Nat.two_pow_pos 4), show (row * 16 + col) / 2 ^ 4 = row by omega] at high
  rw [shifted, Radix2.partner]
  omega

/- Where an axis takes digits from a list of places, its stages are those of one transform. -/
structure Axis (scale : ℕ) (digit place : ℕ → ℕ) : Prop where
  read : ∀ i < 16, digit (place i) = i
  partner : ∀ i < 16, ∀ stage < 4, place i ^^^ (scale <<< stage) = place (Radix2.partner i stage)

theorem columnAxis (row : ℕ) : Axis 1 (· % 16) (row * 16 + ·) where
  read := fun i inside => by omega
  partner := fun i inside stage small => columnPartner inside small

theorem rowAxis {col : ℕ} (inside : col < 16) : Axis 16 (· / 16) (· * 16 + col) where
  read := fun i _ => by omega
  partner := fun i _ stage _ => rowPartner inside

theorem axisStagesDft {twist : ℕ → ℕ → ℂ → ℂ} {scale : ℕ} {digit place : ℕ → ℕ} {x : ℕ → ℂ}
    (twisted : ∀ stage < 4, ∀ d b, twist stage d b = tableTwist (stageTwiddle direction 16) stage d b)
    (axis : Axis scale digit place) (count : ℕ) (few : count ≤ 4) :
    ∀ i < 16, (List.range count).foldl (axisStage twist scale digit) x (place i) =
      stages 4 (directionRoot direction 16) count (fun d => x (place d)) i := by
  induction count with
  | zero => exact fun _ _ => rfl
  | succ count ih =>
      intro i inside
      have small : count < 4 := few
      rw [List.range_succ, List.foldl_append, List.foldl_cons, List.foldl_nil, stagesSucc,
        axisStageButterfly small (twisted count small) (axis.read i inside) (axis.partner i inside count small)]
      exact butterflyCongr (ih small.le) small inside

theorem rootHalf : directionRoot direction 16 ^ 2 ^ (4 - 1) = -1 := by
  have forward : forwardRoot 16 ^ 8 = -1 := @FlagFft.Real.forwardRootMiddle 8 (by norm_num)
  cases direction with
  | forward => exact forward
  | inverse =>
      change conj (forwardRoot 16) ^ 8 = -1
      rw [← map_pow, forward, map_neg, map_one]

/- In registers: both inner transforms of bit-reversed values. -/
theorem planeFftDft {twist : ℕ → ℕ → ℂ → ℂ} {x : ℕ → ℂ} {row col : ℕ}
    (twisted : ∀ stage < 4, ∀ d b, twist stage d b = tableTwist (stageTwiddle direction 16) stage d b)
    (rowInside : row < 16) (colInside : col < 16) :
    planeFft twist (fun idx => x (reversed idx)) (row * 16 + col) =
      dft 16 (directionRoot direction 16) (fun r => dft 16 (directionRoot direction 16) (fun c => x (r * 16 + c)) col) row := by
  have columns : ∀ r < 16, columnStages twist 4 (fun idx => x (reversed idx)) (r * 16 + col) =
      dft 16 (directionRoot direction 16) (fun c => x (reverse 4 r * 16 + c)) col := by
    intro r inside
    rw [columnStages, axisStagesDft twisted (columnAxis r) 4 le_rfl col colInside]
    have read : ∀ c < 2 ^ 4, x (reversed (r * 16 + c)) = x (reverse 4 r * 16 + reverse 4 c) := fun c less => by
      rw [reversed, show (r * 16 + c) / 16 = r by omega, show (r * 16 + c) % 16 = c by omega, reverseDigitBits r inside,
        reverseDigitBits c less]
    rw [stagesCongr read le_rfl colInside, stagesDft (fun c => x (reverse 4 r * 16 + c)) colInside rootHalf]
    rfl
  rw [planeFft, rowStages, axisStagesDft twisted (rowAxis colInside) 4 le_rfl row rowInside,
    stagesCongr columns le_rfl rowInside,
    stagesDft (fun r => dft 16 (directionRoot direction 16) (fun c => x (r * 16 + c)) col) rowInside rootHalf]
  rfl

end Values

end FlagFft.ThreeDim.FusedCube
