import FlagFft.Library.Distinct
import FlagFft.Real.Packed
import FlagFft.Stockham
import Mathlib.Data.Nat.Size

/-! Stockham stages of radix 13, 17 and 19: digits d and radix - d share a cosine and a sine term, and half as many
accumulators give outputs k and radix - k. -/
namespace FlagFft.Stockham
open Library.Indexing Library.Stores Library.Dft Library.RealDft Library.Distinct
open Finset (range)
open FlagFft.Real (forwardRoot forwardRootPow forwardRootUnit)
open scoped ComplexConjugate

/- The root of a table built for a direction. -/
noncomputable def directionRoot (direction : Direction) (n : ℕ) : ℂ :=
  match direction with
  | .forward => forwardRoot n
  | .inverse => conj (forwardRoot n)

/- The table of a stage, n roots of the direction. -/
noncomputable def stageTwiddle (direction : Direction) (n i : ℕ) : ℂ := if i < n then directionRoot direction n ^ i else 0

/- A forward codelet in natural order, between two conjugations for the inverse. -/
noncomputable def naturalOrderCodelet (direction : Direction) (radix : ℕ) (x : ℕ → ℂ) (q : ℕ) : ℂ :=
  match direction with
  | .forward => dft radix (forwardRoot radix) x q
  | .inverse => conj (dft radix (forwardRoot radix) (fun d => conj (x d)) q)

/- The four accumulators of one output. -/
structure Accumulators where
  cosineR : ℝ
  cosineI : ℝ
  sineR : ℝ
  sineI : ℝ

namespace Accumulators

def start (x0 : ℂ) : Accumulators := ⟨x0.re, x0.im, 0, 0⟩

def pairDigits (x y root : ℂ) (acc : Accumulators) : Accumulators :=
  let pr := x.re + y.re
  let pi := x.im + y.im
  let mr := x.re - y.re
  let mi := x.im - y.im
  ⟨acc.cosineR + pr * root.re, acc.cosineI + pi * root.re, acc.sineR + mr * root.im, acc.sineI + mi * root.im⟩

def value (acc : Accumulators) : ℂ := ⟨acc.cosineR - acc.sineI, acc.cosineI + acc.sineR⟩

def mirrorValue (acc : Accumulators) : ℂ := ⟨acc.cosineR + acc.sineI, acc.cosineI - acc.sineR⟩

end Accumulators

section Kernel
variable (kernel : StageKernel) (twiddle : ℕ → ℂ) (inPtr outPtr : Address) (spanArg nbatch : ℕ)

namespace StageKernel

def half : ℕ := kernel.radix / 2

/- 1 << half.bit_length() -/
def width : ℕ := 2 ^ kernel.half.size

end StageKernel

def accumulate (m : Memory ℂ) (batch k j output : ℕ) : Accumulators :=
  (List.range' 1 kernel.half).foldl (fun acc digit =>
      let root := twiddle (output * digit % kernel.radix * (kernel.n / kernel.radix))
      acc.pairDigits (stageLoad kernel twiddle inPtr spanArg m batch k j digit)
        (stageLoad kernel twiddle inPtr spanArg m batch k j (kernel.radix - digit)) root)
    (.start (stageLoad kernel twiddle inPtr spanArg m batch k j 0))

/- The lanes of a program that store an output: those inside the mask, if the output is valid. -/
def laneStores (program : ℕ) (valid : Bool) (position : ℕ → ℕ) (value : ℕ → ℕ → ℕ → ℂ) : List (Store Address ℂ) :=
  (List.range kernel.block).flatMap fun lane =>
    let index := program * kernel.block + lane
    if index < nbatch * (kernel.n / kernel.radix) ∧ valid = true then
      let batch := index / (kernel.n / kernel.radix)
      let k := index % (kernel.n / kernel.radix)
      let j := k % kernel.span spanArg
      let base := batch * kernel.n + kernel.radix * k - (kernel.radix - 1) * j
      [⟨outPtr.at (position base), value batch k j⟩]
    else []

/- _build_vector_stage: outputs up to radix / 2, then their mirrors without output zero. -/
def pairedStores (program : ℕ) (m : Memory ℂ) : List (Store Address ℂ) :=
  ((List.range kernel.width).flatMap fun output =>
      laneStores kernel outPtr spanArg nbatch program (output ≤ kernel.half)
        (fun base => base + output * kernel.span spanArg)
        fun batch k j => (accumulate kernel twiddle inPtr spanArg m batch k j output).value) ++
    (List.range kernel.width).flatMap fun output =>
      laneStores kernel outPtr spanArg nbatch program (output ≤ kernel.half ∧ 0 < output)
        (fun base => base + (kernel.radix - output) * kernel.span spanArg)
        fun batch k j => (accumulate kernel twiddle inPtr spanArg m batch k j output).mirrorValue

noncomputable def pairedLaunch (schedule : Schedule) (m : Memory ℂ) : Memory ℂ :=
  runStores (pairedStores kernel twiddle inPtr outPtr spanArg nbatch)
    (schedule.order (ceilDiv (nbatch * (kernel.n / kernel.radix)) kernel.block)) m

end Kernel

section Roots

variable {direction : Direction} {n : ℕ}

theorem directionRootUnit (positive : 0 < n) : UnitRoot n (directionRoot direction n) := by
  cases direction with
  | forward => exact forwardRootUnit positive
  | inverse => exact FlagFft.Real.UnitRoot.conj (forwardRootUnit positive)

/- The roots of a shorter transform, found in the table of a longer one. -/
theorem directionRootDivides {radix : ℕ} (divides : radix ∣ n) (positive : 0 < n) :
    directionRoot direction n ^ (n / radix) = directionRoot direction radix := by
  obtain ⟨count, rfl⟩ := divides
  have radixPositive : 0 < radix := Nat.pos_of_mul_pos_right positive
  have countPositive : 0 < count := Nat.pos_of_mul_pos_left positive
  have forward : forwardRoot (radix * count) ^ count = forwardRoot radix := by
    have radixCast : (radix : ℂ) ≠ 0 := Nat.cast_ne_zero.mpr radixPositive.ne'
    have countCast : (count : ℂ) ≠ 0 := Nat.cast_ne_zero.mpr countPositive.ne'
    rw [forwardRootPow, forwardRoot]
    congr 2
    push_cast
    field_simp
  rw [Nat.mul_div_cancel_left _ radixPositive]
  cases direction with
  | forward => exact forward
  | inverse =>
      simp only [directionRoot]
      rw [← map_pow, forward]

theorem codeletDft (radix : ℕ) (x : ℕ → ℂ) (q : ℕ) :
    naturalOrderCodelet direction radix x q = dft radix (directionRoot direction radix) x q := by
  cases direction with
  | forward => rfl
  | inverse =>
      simp only [naturalOrderCodelet, directionRoot, dft, map_sum, map_mul, map_pow, Complex.conj_conj]

end Roots

section Values

variable {n half : ℕ} {z : ℂ}

theorem unitRootPow (ok : UnitRoot n z) (e : ℕ) : conj (z ^ e) * z ^ e = 1 := by
  rw [map_pow, ← mul_pow, mul_comm, ok.unit, one_pow]

/- The transform by pairs of digits. -/
theorem pairedSum (ok : UnitRoot (2 * half + 1) z) (x : ℕ → ℂ) (output : ℕ) :
    dft (2 * half + 1) z x output = x 0 + ∑ d ∈ range half,
      (x (d + 1) * z ^ (output * (d + 1)) + x (2 * half + 1 - (d + 1)) * conj (z ^ (output * (d + 1)))) := by
  have mirrored : ∀ d < half, z ^ ((2 * half + 1 - (d + 1)) * output) = conj (z ^ (output * (d + 1))) := by
    intro d inside
    refine (conjOfInverse ?_ ?_).symm
    · rw [mul_comm, unitRootPow ok]
    · rw [← pow_add, Nat.mul_comm output, ← Nat.add_mul, show d + 1 + (2 * half + 1 - (d + 1)) = 2 * half + 1 by omega,
        pow_mul, ok.root, one_pow]
  have upper : ∑ d ∈ range half, x (half + d + 1) * z ^ ((half + d + 1) * output) =
      ∑ d ∈ range half, x (2 * half + 1 - (d + 1)) * conj (z ^ (output * (d + 1))) := by
    rw [← Finset.sum_range_reflect]
    refine Finset.sum_congr rfl fun d member => ?_
    have inside := Finset.mem_range.mp member
    rw [← mirrored d inside, show half + (half - 1 - d) + 1 = 2 * half + 1 - (d + 1) by omega]
  have split : ∑ d ∈ range (2 * half), x (d + 1) * z ^ ((d + 1) * output) =
      ∑ d ∈ range half, x (d + 1) * z ^ (output * (d + 1)) + ∑ d ∈ range half, x (half + d + 1) * z ^ ((half + d + 1) * output) := by
    rw [two_mul, Finset.sum_range_add]
    refine congrArg (· + _) (Finset.sum_congr rfl fun d _ => ?_)
    rw [Nat.mul_comm output]
  rw [dft, Finset.sum_range_succ', split, upper, Finset.sum_add_distrib, Nat.zero_mul, pow_zero, mul_one, add_comm]

end Values

section Accumulate

/- One step adds a digit and its mirror to an output, and their conjugate roots to the other. -/
theorem pairDigitsValue (x y root : ℂ) (acc : Accumulators) :
    (acc.pairDigits x y root).value = acc.value + (x * root + y * conj root) ∧
      (acc.pairDigits x y root).mirrorValue = acc.mirrorValue + (x * conj root + y * root) := by
  constructor <;> apply Complex.ext <;>
    simp [Accumulators.pairDigits, Accumulators.value, Accumulators.mirrorValue] <;> ring

theorem accumulateSteps (x y root : ℕ → ℂ) (x0 : ℂ) (half : ℕ) :
    let acc := (List.range' 1 half).foldl (fun (acc : Accumulators) digit => acc.pairDigits (x digit) (y digit) (root digit))
      (Accumulators.start x0)
    acc.value = x0 + ∑ d ∈ range half, (x (d + 1) * root (d + 1) + y (d + 1) * conj (root (d + 1))) ∧
      acc.mirrorValue = x0 + ∑ d ∈ range half, (x (d + 1) * conj (root (d + 1)) + y (d + 1) * root (d + 1)) := by
  induction half with
  | zero => constructor <;> apply Complex.ext <;> simp [Accumulators.start, Accumulators.value, Accumulators.mirrorValue]
  | succ half ih =>
      obtain ⟨value, mirror⟩ := ih
      rw [List.range'_concat, List.foldl_append]
      simp only [List.foldl_cons, List.foldl_nil, Nat.one_mul]
      rw [(pairDigitsValue _ _ _ _).1, (pairDigitsValue _ _ _ _).2, value, mirror, Finset.sum_range_succ,
        Finset.sum_range_succ, Nat.add_comm 1 half]
      exact ⟨add_assoc _ _ _, add_assoc _ _ _⟩

variable {kernel : StageKernel} {direction : Direction} {inPtr outPtr : Address} {spanArg nbatch : ℕ}

/- What the proofs use of the length and the radix. -/
structure StageKernel.Divides (kernel : StageKernel) : Prop where
  odd : kernel.radix % 2 = 1
  positive : 0 < kernel.n
  divides : kernel.radix ∣ kernel.n

theorem StageKernel.Divides.radixOdd (ok : kernel.Divides) : kernel.radix = 2 * kernel.half + 1 := by
  have odd := ok.odd
  unfold half
  omega

theorem tableRoot (ok : kernel.Divides) (e : ℕ) :
    stageTwiddle direction kernel.n (e % kernel.radix * (kernel.n / kernel.radix)) =
      directionRoot direction kernel.radix ^ e := by
  have radix : 0 < kernel.radix := by
    have odd := ok.odd
    omega
  have count : 0 < kernel.n / kernel.radix := Nat.div_pos (Nat.le_of_dvd ok.positive ok.divides) radix
  have inside : e % kernel.radix * (kernel.n / kernel.radix) < kernel.n := by
    calc e % kernel.radix * (kernel.n / kernel.radix) < kernel.radix * (kernel.n / kernel.radix) :=
          Nat.mul_lt_mul_of_pos_right (Nat.mod_lt _ radix) count
      _ = kernel.n := Nat.mul_div_cancel' ok.divides
  rw [stageTwiddle, if_pos inside, Nat.mul_comm, pow_mul, directionRootDivides ok.divides ok.positive,
    powMod (directionRootUnit radix).root]

/- The two outputs of a set of accumulators. -/
theorem accumulateDft (ok : kernel.Divides) (m : Memory ℂ) (batch k j output : ℕ) :
    let load := stageLoad kernel (stageTwiddle direction kernel.n) inPtr spanArg m batch k j
    let acc := accumulate kernel (stageTwiddle direction kernel.n) inPtr spanArg m batch k j output
    acc.value = naturalOrderCodelet direction kernel.radix load output ∧
      (output ≤ kernel.radix → acc.mirrorValue = naturalOrderCodelet direction kernel.radix load (kernel.radix - output)) := by
  intro load acc
  have radix : 0 < kernel.radix := by
    have odd := ok.odd
    omega
  have unit := @directionRootUnit direction _ radix
  have steps := accumulateSteps load (fun digit => load (kernel.radix - digit))
    (fun digit => directionRoot direction kernel.radix ^ (output * digit)) (load 0) kernel.half
  have same : acc = (List.range' 1 kernel.half).foldl (fun (acc : Accumulators) digit =>
      acc.pairDigits (load digit) (load (kernel.radix - digit)) (directionRoot direction kernel.radix ^ (output * digit)))
      (Accumulators.start (load 0)) := by
    simp only [acc, accumulate, tableRoot ok, load]
  rw [codeletDft, codeletDft, same, steps.1, steps.2]
  rw [ok.radixOdd] at unit ⊢
  constructor
  · exact (pairedSum unit load output).symm
  · intro inside
    rw [pairedSum unit]
    refine congrArg (load 0 + ·) (Finset.sum_congr rfl fun d _ => ?_)
    have turned : directionRoot direction (2 * kernel.half + 1) ^ ((2 * kernel.half + 1 - output) * (d + 1)) =
        conj (directionRoot direction (2 * kernel.half + 1) ^ (output * (d + 1))) := by
      refine (conjOfInverse ?_ ?_).symm
      · rw [mul_comm, unitRootPow unit]
      · rw [← pow_add, ← Nat.add_mul, Nat.add_sub_cancel' inside, pow_mul, unit.root, one_pow]
    rw [turned, Complex.conj_conj]

end Accumulate

section Positions

variable {n radix span groups : ℕ}

/- Output digit q of butterfly k of a row. -/
def stagePosition (radix span k q : ℕ) : ℕ := (k / span * radix + q) * span + k % span

/- radix * k - (radix - 1) * j drops nothing, since j is at most k. -/
theorem stageOffset (positive : 0 < radix) (base k q : ℕ) :
    base + radix * k - (radix - 1) * (k % span) + q * span = base + stagePosition radix span k q := by
  obtain ⟨predecessor, rfl⟩ := Nat.exists_eq_add_of_le' positive
  have split := Nat.div_add_mod' k span
  have expand : (predecessor + 1) * k = predecessor * (k % span) + ((predecessor + 1) * (k / span) * span + k % span) := by
    conv_lhs => rw [← split]
    ring
  rw [Nat.add_sub_cancel, expand, ← Nat.add_assoc, Nat.add_comm base, Nat.add_assoc (predecessor * _), Nat.add_sub_cancel_left,
    stagePosition]
  ring

theorem stagePositionLt (spans : 0 < span) {k q : ℕ} (hk : k < groups * span) (hq : q < radix) :
    stagePosition radix span k q < groups * radix * span :=
  mulAddLt (mulAddLt (Nat.div_lt_of_lt_mul (by rwa [Nat.mul_comm span])) hq) (Nat.mod_lt k spans)

/- The butterfly and the digit a position belongs to. -/
def positionButterfly (radix span o : ℕ) : ℕ := o / span / radix * span + o % span

def positionDigit (radix span o : ℕ) : ℕ := o / span % radix

theorem butterflyOfPosition (spans : 0 < span) {k q : ℕ} (hq : q < radix) :
    positionButterfly radix span (stagePosition radix span k q) = k ∧
      positionDigit radix span (stagePosition radix span k q) = q := by
  have low := Nat.mod_lt k spans
  rw [positionButterfly, positionDigit, stagePosition, mulAddDiv low, mulAddMod low, mulAddDiv hq, mulAddMod hq]
  exact ⟨Nat.div_add_mod' k span, rfl⟩

theorem positionOfButterfly (o : ℕ) (spans : 0 < span) :
    stagePosition radix span (positionButterfly radix span o) (positionDigit radix span o) = o := by
  have low := Nat.mod_lt o spans
  rw [stagePosition, positionButterfly, positionDigit, mulAddDiv low, mulAddMod low, Nat.div_add_mod', Nat.div_add_mod']

theorem positionButterflyLt (spans : 0 < span) {o : ℕ} (inside : o < groups * radix * span) :
    positionButterfly radix span o < groups * span := by
  refine mulAddLt (Nat.div_lt_of_lt_mul ?_) (Nat.mod_lt o spans)
  rw [Nat.mul_comm radix]
  exact Nat.div_lt_of_lt_mul (by rwa [Nat.mul_comm span])

end Positions

section Stores

variable {kernel : StageKernel} {direction : Direction} {inPtr outPtr : Address} {spanArg nbatch program : ℕ} {m : Memory ℂ}

/- The stores of one digit, in either form. -/
noncomputable def digitStores (kernel : StageKernel) (direction : Direction) (inPtr outPtr : Address)
    (spanArg nbatch program : ℕ) (m : Memory ℂ) (digit : ℕ) : List (Store Address ℂ) :=
  laneStores kernel outPtr spanArg nbatch program true (fun base => base + digit * kernel.span spanArg)
    fun batch k j => naturalOrderCodelet direction kernel.radix
      (stageLoad kernel (stageTwiddle direction kernel.n) inPtr spanArg m batch k j) digit

theorem scalarDigits : stageStores kernel (naturalOrderCodelet direction kernel.radix) (stageTwiddle direction kernel.n) inPtr
    outPtr spanArg nbatch program m =
      (List.range kernel.radix).flatMap (digitStores kernel direction inPtr outPtr spanArg nbatch program m) := by
  refine List.flatMap_congr fun digit _ => ?_
  simp only [digitStores, laneStores, and_true]

theorem laneStoresOut {valid : Bool} {position : ℕ → ℕ} {value : ℕ → ℕ → ℕ → ℂ} (masked : valid = false) :
    laneStores kernel outPtr spanArg nbatch program valid position value = [] := by
  simp [laneStores, masked]

theorem halfBelowWidth : kernel.half < kernel.width := Nat.lt_size_self _

/- Padding outputs store nothing. -/
theorem validOutputs {f : ℕ → List (Store Address ℂ)} (padding : ∀ output, kernel.half < output → f output = []) :
    (List.range kernel.width).flatMap f = (List.range (kernel.half + 1)).flatMap f := by
  obtain ⟨rest, width⟩ := Nat.exists_eq_add_of_le (Nat.succ_le_of_lt (@halfBelowWidth kernel))
  have tail : ((List.range rest).map (kernel.half + 1 + ·)).flatMap f = [] := by
    rw [List.flatMap_eq_nil_iff]
    intro output member
    obtain ⟨_, _, rfl⟩ := List.mem_map.mp member
    exact padding _ (by omega)
  rw [width, List.range_add, List.flatMap_append, tail, List.append_nil]

theorem pairedDigits (ok : kernel.Divides) :
    pairedStores kernel (stageTwiddle direction kernel.n) inPtr outPtr spanArg nbatch program m =
      (List.range (kernel.half + 1) ++ (List.range' 1 kernel.half).map (kernel.radix - ·)).flatMap
        (digitStores kernel direction inPtr outPtr spanArg nbatch program m) := by
  have radix := ok.radixOdd
  have values (batch k j output : ℕ) := @accumulateDft kernel direction inPtr spanArg ok m batch k j output
  rw [List.flatMap_append, pairedStores, validOutputs, validOutputs]
  · congr 1
    · refine List.flatMap_congr fun output member => ?_
      have inside : output ≤ kernel.half := Nat.le_of_lt_succ (List.mem_range.mp member)
      simp only [digitStores, (values _ _ _ _).1, inside, decide_true]
    · have zero : (List.range (kernel.half + 1)) = 0 :: List.range' 1 kernel.half := by
        rw [List.range_eq_range', List.range'_succ]
      rw [zero, List.flatMap_cons, laneStoresOut (by simp), List.nil_append, List.flatMap_map]
      refine List.flatMap_congr fun output member => ?_
      obtain ⟨i, below, rfl⟩ := List.mem_range'.mp member
      have inside : 1 + 1 * i ≤ kernel.radix := by omega
      have valid : decide (1 + 1 * i ≤ kernel.half ∧ 0 < 1 + 1 * i) = true := by
        rw [decide_eq_true_eq]
        omega
      simp only [digitStores, valid, (values _ _ _ _).2 inside]
  · intro output beyond
    exact laneStoresOut (by simp; omega)
  · intro output beyond
    exact laneStoresOut (by simpa using beyond)

/- Outputs 0 to radix / 2 and the mirrors of the others are all digits. -/
theorem digitsPerm (ok : kernel.Divides) :
    (List.range (kernel.half + 1) ++ (List.range' 1 kernel.half).map (kernel.radix - ·)).Perm (List.range kernel.radix) := by
  have radix := ok.radixOdd
  refine (List.perm_ext_iff_of_nodup ?_ List.nodup_range).mpr fun digit => ?_
  · refine List.nodup_append.mpr ⟨List.nodup_range, ?_, ?_⟩
    · refine List.Nodup.map_on ?_ List.nodup_range'
      intro a inside b inside' same
      obtain ⟨i, _, rfl⟩ := List.mem_range'.mp inside
      obtain ⟨i', _, rfl⟩ := List.mem_range'.mp inside'
      omega
    · intro a low b high same
      obtain ⟨b, inside, rfl⟩ := List.mem_map.mp high
      obtain ⟨i, _, rfl⟩ := List.mem_range'.mp inside
      have := List.mem_range.mp low
      omega
  · simp only [List.mem_append, List.mem_range, List.mem_map, List.mem_range'_1]
    constructor
    · rintro (low | ⟨output, _, rfl⟩) <;> omega
    · intro inside
      by_cases low : digit < kernel.half + 1
      · exact .inl low
      · exact .inr ⟨kernel.radix - digit, by omega, by omega⟩

end Stores

section Launches

variable {kernel : StageKernel} {direction : Direction} {inPtr outPtr : Address} {spanArg nbatch program : ℕ} {m : Memory ℂ}

/- The checks of build_stockham_stage, and an odd radix. -/
structure StageKernel.Accepts (kernel : StageKernel) (spanArg : ℕ) : Prop where
  odd : kernel.radix % 2 = 1
  positive : 0 < kernel.n
  span : 0 < kernel.span spanArg
  divides : kernel.radix * kernel.span spanArg ∣ kernel.n
  block : 0 < kernel.block

namespace StageKernel.Accepts
variable (ok : kernel.Accepts spanArg)
include ok

theorem radixPositive : 0 < kernel.radix := by
  have odd := ok.odd
  omega

theorem paired : kernel.Divides := ⟨ok.odd, ok.positive, (Dvd.intro _ rfl).trans ok.divides⟩

theorem groups : ∃ groups, kernel.n = groups * kernel.radix * kernel.span spanArg ∧
    kernel.n / kernel.radix = groups * kernel.span spanArg := by
  obtain ⟨groups, whole⟩ := ok.divides
  refine ⟨groups, by rw [whole]; ring, ?_⟩
  rw [whole, Nat.mul_assoc, Nat.mul_div_cancel_left _ ok.radixPositive, Nat.mul_comm]

end StageKernel.Accepts

/- Where a program stores, by digits and lanes. -/
def stageCells (kernel : StageKernel) (outPtr : Address) (spanArg nbatch program : ℕ) : List Address :=
  (List.range kernel.radix).flatMap fun digit =>
    (((List.range kernel.block).map (program * kernel.block + ·)).filter (· < nbatch * (kernel.n / kernel.radix))).map fun index =>
      outPtr.at (index / (kernel.n / kernel.radix) * kernel.n +
        stagePosition kernel.radix (kernel.span spanArg) (index % (kernel.n / kernel.radix)) digit)

theorem digitCells (ok : kernel.Accepts spanArg) (digit : ℕ) :
    (digitStores kernel direction inPtr outPtr spanArg nbatch program m digit).map Store.address =
      (((List.range kernel.block).map (program * kernel.block + ·)).filter (· < nbatch * (kernel.n / kernel.radix))).map
        fun index => outPtr.at (index / (kernel.n / kernel.radix) * kernel.n +
          stagePosition kernel.radix (kernel.span spanArg) (index % (kernel.n / kernel.radix)) digit) := by
  simp only [digitStores, laneStores, and_true, stageOffset ok.radixPositive]
  induction List.range kernel.block with
  | nil => rfl
  | cons lane rest ih =>
      rw [List.flatMap_cons, List.map_append, ih, List.map_cons]
      by_cases inside : program * kernel.block + lane < nbatch * (kernel.n / kernel.radix)
      · rw [List.filter_cons_of_pos (by simpa using inside), if_pos inside]
        rfl
      · rw [List.filter_cons_of_neg (by simpa using inside), if_neg inside]
        rfl

theorem pairedPerm (ok : kernel.Divides) :
    (pairedStores kernel (stageTwiddle direction kernel.n) inPtr outPtr spanArg nbatch program m).Perm
      (stageStores kernel (naturalOrderCodelet direction kernel.radix) (stageTwiddle direction kernel.n) inPtr outPtr spanArg
        nbatch program m) := by
  rw [pairedDigits ok, scalarDigits]
  exact (digitsPerm ok).flatMap_right _

theorem pairedCells (ok : kernel.Accepts spanArg) :
    ((pairedStores kernel (stageTwiddle direction kernel.n) inPtr outPtr spanArg nbatch program m).map Store.address).Perm
      (stageCells kernel outPtr spanArg nbatch program) := by
  refine ((pairedPerm ok.paired).map _).trans ?_
  rw [scalarDigits, List.map_flatMap, stageCells]
  simp only [digitCells ok]
  exact .refl _

/- The butterfly and the digit of a cell. -/
theorem cellKeys (ok : kernel.Accepts spanArg) {index digit : ℕ} (inside : index < nbatch * (kernel.n / kernel.radix))
    (hq : digit < kernel.radix) :
    let o := index / (kernel.n / kernel.radix) * kernel.n +
      stagePosition kernel.radix (kernel.span spanArg) (index % (kernel.n / kernel.radix)) digit
    o < nbatch * kernel.n ∧ positionDigit kernel.radix (kernel.span spanArg) (o % kernel.n) = digit ∧
      o / kernel.n * (kernel.n / kernel.radix) + positionButterfly kernel.radix (kernel.span spanArg) (o % kernel.n) = index := by
  intro o
  obtain ⟨groups, whole, count⟩ := ok.groups
  have some_ : 0 < kernel.n / kernel.radix := Nat.pos_of_mul_pos_left (Nat.zero_lt_of_lt inside)
  have low : stagePosition kernel.radix (kernel.span spanArg) (index % (kernel.n / kernel.radix)) digit < kernel.n := by
    have butterfly : index % (kernel.n / kernel.radix) < groups * kernel.span spanArg := count ▸ Nat.mod_lt _ some_
    exact (stagePositionLt ok.span butterfly hq).trans_eq whole.symm
  have batch : index / (kernel.n / kernel.radix) < nbatch := Nat.div_lt_of_lt_mul (by rwa [Nat.mul_comm])
  obtain ⟨butterfly, digits⟩ := @butterflyOfPosition kernel.radix (kernel.span spanArg) ok.span (index % (kernel.n / kernel.radix)) _ hq
  simp only [o]
  rw [mulAddMod low, mulAddDiv low, butterfly, digits]
  exact ⟨mulAddLt batch low, rfl, Nat.div_add_mod' index _⟩

theorem memStageCells {cell : Address} : cell ∈ stageCells kernel outPtr spanArg nbatch program ↔
    ∃ digit < kernel.radix, ∃ lane < kernel.block, program * kernel.block + lane < nbatch * (kernel.n / kernel.radix) ∧
      outPtr.at ((program * kernel.block + lane) / (kernel.n / kernel.radix) * kernel.n + stagePosition kernel.radix
        (kernel.span spanArg) ((program * kernel.block + lane) % (kernel.n / kernel.radix)) digit) = cell := by
  simp only [stageCells, List.mem_flatMap, List.mem_range, List.mem_map, List.mem_filter, decide_eq_true_eq]
  constructor
  · rintro ⟨digit, hq, index, ⟨⟨lane, hl, rfl⟩, inside⟩, same⟩
    exact ⟨digit, hq, lane, hl, inside, same⟩
  · rintro ⟨digit, hq, lane, hl, inside, same⟩
    exact ⟨digit, hq, _, ⟨⟨lane, hl, rfl⟩, inside⟩, same⟩

theorem stageCellsNodup (ok : kernel.Accepts spanArg) : (stageCells kernel outPtr spanArg nbatch program).Nodup := by
  refine flatMapNodup (fun cell => positionDigit kernel.radix (kernel.span spanArg)
    ((cell.offset - outPtr.offset) % kernel.n)) List.nodup_range (fun digit hq => ?_) (fun digit hq cell member => ?_)
  · refine List.Nodup.map_on ?_ ((List.nodup_range.map fun lane lane' same => Nat.add_left_cancel same).filter _)
    intro index here index' there same
    have inside := of_decide_eq_true (List.mem_filter.mp here).2
    have inside' := of_decide_eq_true (List.mem_filter.mp there).2
    have offsets := Address.atInj.mp same
    have keys := (cellKeys ok inside (List.mem_range.mp hq)).2.2
    rw [offsets] at keys
    exact keys.symm.trans (cellKeys ok inside' (List.mem_range.mp hq)).2.2
  · obtain ⟨index, here, rfl⟩ := List.mem_map.mp member
    have inside := of_decide_eq_true (List.mem_filter.mp here).2
    simp only [Address.at, Nat.add_sub_cancel_left]
    exact (cellKeys ok inside (List.mem_range.mp hq)).2.1

/- The programs of a launch store every element of every row once. -/
theorem launchCells (ok : kernel.Accepts spanArg) :
    ((List.range (ceilDiv (nbatch * (kernel.n / kernel.radix)) kernel.block)).flatMap
      (stageCells kernel outPtr spanArg nbatch)).Perm ((List.range (nbatch * kernel.n)).map outPtr.at) := by
  refine (List.perm_ext_iff_of_nodup ?_ ?_).mpr fun cell => ?_
  · refine flatMapNodup (fun cell => ((cell.offset - outPtr.offset) / kernel.n * (kernel.n / kernel.radix) +
      positionButterfly kernel.radix (kernel.span spanArg) ((cell.offset - outPtr.offset) % kernel.n)) / kernel.block)
      List.nodup_range (fun _ _ => stageCellsNodup ok) fun program _ cell member => ?_
    obtain ⟨digit, hq, lane, hl, inside, rfl⟩ := memStageCells.mp member
    simp only [Address.at, Nat.add_sub_cancel_left]
    rw [(cellKeys ok inside hq).2.2, mulAddDiv hl]
  · exact List.nodup_range.map fun i j same => Address.atInj.mp same
  · simp only [List.mem_flatMap, memStageCells, List.mem_range, List.mem_map]
    constructor
    · rintro ⟨program, _, digit, hq, lane, hl, inside, rfl⟩
      exact ⟨_, (cellKeys ok inside hq).1, rfl⟩
    · rintro ⟨o, inside, rfl⟩
      obtain ⟨groups, whole, count⟩ := ok.groups
      have low : o % kernel.n < groups * kernel.radix * kernel.span spanArg := whole ▸ Nat.mod_lt o ok.positive
      have butterfly := positionButterflyLt ok.span low
      rw [← count] at butterfly
      have inside : o / kernel.n * (kernel.n / kernel.radix) +
          positionButterfly kernel.radix (kernel.span spanArg) (o % kernel.n) < nbatch * (kernel.n / kernel.radix) :=
        mulAddLt (Nat.div_lt_of_lt_mul (by rwa [Nat.mul_comm])) butterfly
      obtain ⟨index, split⟩ : ∃ index, o / kernel.n * (kernel.n / kernel.radix) +
          positionButterfly kernel.radix (kernel.span spanArg) (o % kernel.n) = index := ⟨_, rfl⟩
      refine ⟨index / kernel.block, (ltCeilDiv ok.block).mpr ((Nat.div_mul_le_self _ _).trans_lt (split ▸ inside)),
        positionDigit kernel.radix (kernel.span spanArg) (o % kernel.n), Nat.mod_lt _ ok.radixPositive,
        index % kernel.block, Nat.mod_lt _ ok.block, ?_, ?_⟩
      · rwa [Nat.div_add_mod', ← split]
      · rw [Nat.div_add_mod', ← split, mulAddDiv butterfly, mulAddMod butterfly, positionOfButterfly _ ok.span,
          Nat.div_add_mod']

theorem pairedLaunchSame (ok : kernel.Accepts spanArg) (schedule : Schedule) (m : Memory ℂ) :
    pairedLaunch kernel (stageTwiddle direction kernel.n) inPtr outPtr spanArg nbatch schedule m =
      stageLaunch kernel (naturalOrderCodelet direction kernel.radix) (stageTwiddle direction kernel.n) inPtr outPtr spanArg
        nbatch schedule m := by
  have step (m : Memory ℂ) (program : ℕ) :=
    @commitAllPerm Address ℂ _ m _ _ (@pairedPerm kernel direction inPtr outPtr spanArg nbatch program m ok.paired)
      ((pairedCells ok).nodup_iff.mpr (stageCellsNodup ok))
  simp only [pairedLaunch, stageLaunch, runStores, step]

end Launches

/- The paired form stores what the scalar form stores, and every element of the rows once. -/
theorem pairedStageMatches (kernel : StageKernel) (direction : Direction) (inPtr outPtr : Address) (spanArg nbatch : ℕ)
    (ok : kernel.Accepts spanArg) :
    (∀ program m, (pairedStores kernel (stageTwiddle direction kernel.n) inPtr outPtr spanArg nbatch program m).Perm
      (stageStores kernel (naturalOrderCodelet direction kernel.radix) (stageTwiddle direction kernel.n) inPtr outPtr spanArg
        nbatch program m)) ∧
      ∀ m, ((List.range (ceilDiv (nbatch * (kernel.n / kernel.radix)) kernel.block)).flatMap fun program =>
        (pairedStores kernel (stageTwiddle direction kernel.n) inPtr outPtr spanArg nbatch program m).map Store.address).Perm
          ((List.range (nbatch * kernel.n)).map outPtr.at) ∧
        ∀ schedule, pairedLaunch kernel (stageTwiddle direction kernel.n) inPtr outPtr spanArg nbatch schedule m =
          stageLaunch kernel (naturalOrderCodelet direction kernel.radix) (stageTwiddle direction kernel.n) inPtr outPtr
            spanArg nbatch schedule m := by
  refine ⟨fun program m => pairedPerm ok.paired, fun m => ⟨?_, fun schedule => pairedLaunchSame ok schedule m⟩⟩
  exact (List.Perm.flatMap_left _ fun program _ => pairedCells ok).trans (launchCells ok)

/- The second stage of a transform of 13 * 26 points. -/
def secondOfThirteen : StageKernel := ⟨338, 13, 2, 32⟩

theorem pairedStageMatchesThirteen :
    (pairedStores secondOfThirteen (stageTwiddle .inverse 338) ⟨0, 0⟩ ⟨1, 0⟩ 2 3 1 fun _ => 0).Perm
      (stageStores secondOfThirteen (naturalOrderCodelet .inverse 13) (stageTwiddle .inverse 338) ⟨0, 0⟩ ⟨1, 0⟩ 2 3 1
        fun _ => 0) :=
  (pairedStageMatches secondOfThirteen .inverse ⟨0, 0⟩ ⟨1, 0⟩ 2 3
    ⟨rfl, by decide, by decide, ⟨13, rfl⟩, by decide⟩).1 1 _

end FlagFft.Stockham
