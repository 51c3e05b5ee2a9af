import FlagFft.Library.Dft
import Mathlib.Analysis.SpecialFunctions.Complex.Log

/-! Transforms of real sequences over the complex numbers: the half-length transform of interleaved
pairs against the full one, and the inverse of a compact spectrum against its packed form. -/
namespace FlagFft.Library.RealDft
open Finset (range)
open Complex (I)
open Library.Dft Library.Indexing
open scoped ComplexConjugate

/- A root of unity on the unit circle. -/
structure UnitRoot (n : ℕ) (w : ℂ) : Prop where
  root : w ^ n = 1
  unit : w * conj w = 1

theorem conjOfInverse {a b : ℂ} (unit : a * conj a = 1) (inverse : a * b = 1) : conj a = b := by
  calc conj a = conj a * (a * b) := by rw [inverse, mul_one]
    _ = a * conj a * b := by ring
    _ = b := by rw [unit, one_mul]

theorem unitPow {a : ℂ} (unit : a * conj a = 1) (e : ℕ) : a ^ e * conj (a ^ e) = 1 := by
  rw [map_pow, ← mul_pow, unit, one_pow]

section Forward
variable {P : ℕ} {w : ℂ}

def interleaved (x : ℕ → ℝ) (j : ℕ) : ℂ := ⟨x (2 * j), x (2 * j + 1)⟩

theorem dftInterleaved (v : ℂ) (x : ℕ → ℝ) (k : ℕ) : dft P v (interleaved x) k =
    dft P v (fun j => (x (2 * j) : ℂ)) k + I * dft P v (fun j => (x (2 * j + 1) : ℂ)) k := by
  unfold dft
  rw [Finset.mul_sum, ← Finset.sum_add_distrib]
  refine Finset.sum_congr rfl fun j _ => ?_
  have pair : interleaved x j = x (2 * j) + I * x (2 * j + 1) := by
    apply Complex.ext <;> simp [interleaved]
  rw [pair]
  ring

/- The transform of a real sequence is Hermitian. -/
theorem conjDftReal {v : ℂ} (ok : UnitRoot P v) (x : ℕ → ℝ) {k : ℕ} (hk : k ≤ P) :
    conj (dft P v (fun j => (x j : ℂ)) (P - k)) = dft P v (fun j => (x j : ℂ)) k := by
  unfold dft
  rw [map_sum]
  refine Finset.sum_congr rfl fun j _ => ?_
  have inverse : v ^ (j * (P - k)) * v ^ (j * k) = 1 := by
    rw [← pow_add, ← Nat.mul_add, Nat.sub_add_cancel hk, Nat.mul_comm, pow_mul, ok.root, one_pow]
  rw [map_mul, Complex.conj_ofReal, conjOfInverse (unitPow ok.unit _) inverse]

/- r2c: the full transform from the transform of interleaved pairs. -/
theorem packedForward (ok : UnitRoot (2 * P) w) (x : ℕ → ℝ) {k : ℕ} (hk : k ≤ P) :
    let a := dft P (w ^ 2) (interleaved x) (k % P)
    let b := conj (dft P (w ^ 2) (interleaved x) ((P - k) % P))
    1 / 2 * (a + b - I * ((a - b) * w ^ k)) = dft (2 * P) w (fun j => (x j : ℂ)) k := by
  have half : UnitRoot P (w ^ 2) := ⟨by rw [← pow_mul, ok.root], by rw [map_pow, ← mul_pow, ok.unit, one_pow]⟩
  have split := dftSplit (F := P) (f := 2) (by rw [Nat.mul_comm]; exact ok.root) (fun j => (x j : ℂ)) k 0
  simp only [Finset.sum_range_succ, Finset.sum_range_zero, Nat.mul_zero, Nat.zero_mul, pow_zero, mul_one, zero_add,
    Nat.add_zero, Nat.mul_comm _ 2, Nat.mul_comm P] at split
  intro a b
  have left : a = dft P (w ^ 2) (fun j => (x (2 * j) : ℂ)) k + I * dft P (w ^ 2) (fun j => (x (2 * j + 1) : ℂ)) k := by
    rw [← dftInterleaved]
    exact dftMod half.root k
  have right : b = dft P (w ^ 2) (fun j => (x (2 * j) : ℂ)) k - I * dft P (w ^ 2) (fun j => (x (2 * j + 1) : ℂ)) k := by
    change conj (dft P (w ^ 2) (interleaved x) ((P - k) % P)) = _
    rw [dftMod half.root, dftInterleaved, map_add, map_mul, conjDftReal half (fun j => x (2 * j)) hk,
      conjDftReal half (fun j => x (2 * j + 1)) hk, Complex.conj_I]
    ring
  rw [← split, left, right]
  ring_nf
  rw [Complex.I_sq]
  ring

end Forward

section Inverse

/- The spectrum of a real sequence from its first half; the imaginary parts of the real bins are dropped. -/
def hermitianFull (n : ℕ) (X : ℕ → ℂ) (k : ℕ) : ℂ :=
  let source := if k < n / 2 + 1 then k else n - k
  let imaginary := if k < n / 2 + 1 then (X source).im else -(X source).im
  ⟨(X source).re, if k = 0 ∨ (n % 2 = 0 ∧ k = n / 2) then 0 else imaginary⟩

def packedSpectrum (P : ℕ) (c : ℂ) (X : ℕ → ℂ) (k : ℕ) : ℂ :=
  X k + conj (X (P - k)) + I * ((X k - conj (X (P - k))) * c ^ k)

/- One term of an inverse transform. -/
def term (c : ℂ) (X : ℕ → ℂ) (t k : ℕ) : ℂ := X k * c ^ (k * t)

/- The bins strictly between the two real ones, with their mirror images. -/
def inner (Q : ℕ) (c : ℂ) (X : ℕ → ℂ) (t : ℕ) : ℝ := ∑ i ∈ range Q, 2 * (term c X t (i + 1)).re

variable {Q : ℕ} {c : ℂ} {X : ℕ → ℂ}

theorem innerSum (t : ℕ) :
    ∑ i ∈ range Q, term c X t (i + 1) + ∑ i ∈ range Q, conj (term c X t (i + 1)) = inner Q c X t := by
  unfold inner
  rw [← Finset.sum_add_distrib, Complex.ofReal_sum]
  exact Finset.sum_congr rfl fun i _ => Complex.add_conj _

theorem mirroredTerm (unit : c * conj c = 1) {P k t : ℕ} (hk : k ≤ P) :
    conj (X k) * c ^ ((P - k) * t) = c ^ (P * t) * conj (term c X t k) := by
  have inverse : c ^ (k * t) * conj (c ^ (k * t)) = 1 := unitPow unit _
  have whole : c ^ (P * t) = c ^ ((P - k) * t) * c ^ (k * t) := by
    rw [← pow_add, ← Nat.add_mul, Nat.sub_add_cancel hk]
  rw [term, map_mul, whole]
  linear_combination (-(conj (X k) * c ^ ((P - k) * t))) * inverse

theorem reflected (F : ℕ → ℂ) : ∑ i ∈ range Q, F (Q - i) = ∑ i ∈ range Q, F (i + 1) := by
  rw [← Finset.sum_range_reflect]
  refine Finset.sum_congr rfl fun i hi => ?_
  have := Finset.mem_range.mp hi
  congr 1
  omega

section Bins
variable (X)

theorem hermitianFullZero : hermitianFull (2 * (Q + 1)) X 0 = (X 0).re := by
  apply Complex.ext <;> simp [hermitianFull]

theorem hermitianFullMiddle : hermitianFull (2 * (Q + 1)) X (Q + 1) = (X (Q + 1)).re := by
  have half : 2 * (Q + 1) / 2 = Q + 1 := by omega
  apply Complex.ext <;> simp [hermitianFull, half]

theorem hermitianFullLow {i : ℕ} (hi : i < Q) : hermitianFull (2 * (Q + 1)) X (i + 1) = X (i + 1) := by
  have low : i + 1 < 2 * (Q + 1) / 2 + 1 := by omega
  have apart : ¬ (i + 1 = 0 ∨ 2 * (Q + 1) % 2 = 0 ∧ i + 1 = 2 * (Q + 1) / 2) := by omega
  unfold hermitianFull
  simp only [if_pos low, if_neg apart, Complex.eta]

theorem hermitianFullHigh {i : ℕ} (hi : i < Q) :
    hermitianFull (2 * (Q + 1)) X (Q + 2 + i) = conj (X (Q - i)) := by
  have high : ¬ Q + 2 + i < 2 * (Q + 1) / 2 + 1 := by omega
  have apart : ¬ (Q + 2 + i = 0 ∨ 2 * (Q + 1) % 2 = 0 ∧ Q + 2 + i = 2 * (Q + 1) / 2) := by omega
  have source : 2 * (Q + 1) - (Q + 2 + i) = Q - i := by omega
  unfold hermitianFull
  simp only [if_neg high, if_neg apart, source]
  apply Complex.ext <;> simp

end Bins

/- The bins above the middle mirror the ones below. -/
theorem hermitianFullSum (ok : UnitRoot (2 * (Q + 1)) c) (middle : c ^ (Q + 1) = -1) (X : ℕ → ℂ) (t : ℕ) :
    dft (2 * (Q + 1)) c (hermitianFull (2 * (Q + 1)) X) t =
      (X 0).re + (-1) ^ t * (X (Q + 1)).re + inner Q c X t := by
  have low : ∑ i ∈ range Q, hermitianFull (2 * (Q + 1)) X (i + 1) * c ^ ((i + 1) * t) =
      ∑ i ∈ range Q, term c X t (i + 1) :=
    Finset.sum_congr rfl fun i hi => by rw [hermitianFullLow X (Finset.mem_range.mp hi), term]
  have high : ∑ i ∈ range Q, hermitianFull (2 * (Q + 1)) X (Q + 2 + i) * c ^ ((Q + 2 + i) * t) =
      ∑ i ∈ range Q, conj (term c X t (i + 1)) := by
    rw [← reflected fun k => conj (term c X t k)]
    refine Finset.sum_congr rfl fun i hi => ?_
    have inside := Finset.mem_range.mp hi
    have mirrored := mirroredTerm (X := X) (t := t) ok.unit (show Q - i ≤ 2 * (Q + 1) by omega)
    rw [pow_mul c (2 * (Q + 1)), ok.root, one_pow, one_mul,
      show 2 * (Q + 1) - (Q - i) = Q + 2 + i by omega] at mirrored
    rw [hermitianFullHigh X inside, mirrored]
  have sign : c ^ ((Q + 1) * t) = (-1) ^ t := by rw [pow_mul, middle]
  calc dft (2 * (Q + 1)) c (hermitianFull (2 * (Q + 1)) X) t
      = ∑ k ∈ range (Q + 2 + Q), hermitianFull (2 * (Q + 1)) X k * c ^ (k * t) := by
        rw [show Q + 2 + Q = 2 * (Q + 1) by ring]
        rfl
    _ = (X 0).re + (-1) ^ t * (X (Q + 1)).re + inner Q c X t := by
        rw [Finset.sum_range_add, high, Finset.sum_range_succ, Finset.sum_range_succ', low, hermitianFullZero,
          hermitianFullMiddle, sign, ← innerSum]
        ring

/- The packed spectrum splits into bins and mirrored bins, with the two real bins left over. -/
theorem packedSpectrumSum (unit : c * conj c = 1) (middle : c ^ (Q + 1) = -1) (X : ℕ → ℂ) (j : ℕ) :
    dft (Q + 1) (c ^ 2) (packedSpectrum (Q + 1) c X) j =
      (X 0 + conj (X (Q + 1)) + inner Q c X (2 * j)) +
        I * (X 0 - conj (X (Q + 1)) + inner Q c X (2 * j + 1)) := by
  -- what one bin and what one mirrored bin contribute
  let bin := fun k => term c X (2 * j) k + I * term c X (2 * j + 1) k
  let mirror := fun k => conj (term c X (2 * j) k) + I * conj (term c X (2 * j + 1) k)
  have even : c ^ ((Q + 1) * (2 * j)) = 1 := by
    rw [pow_mul, middle, pow_mul, neg_one_sq, one_pow]
  have odd : c ^ ((Q + 1) * (2 * j + 1)) = -1 := by
    rw [pow_mul, middle, pow_succ, pow_mul, neg_one_sq, one_pow, one_mul]
  have split : ∀ k < Q + 1, packedSpectrum (Q + 1) c X k * (c ^ 2) ^ (k * j) = bin k + mirror (Q + 1 - k) := by
    intro k hk
    have first := mirroredTerm (X := X) (t := 2 * j) unit (Nat.sub_le (Q + 1) k)
    have second := mirroredTerm (X := X) (t := 2 * j + 1) unit (Nat.sub_le (Q + 1) k)
    rw [Nat.sub_sub_self hk.le, even, one_mul] at first
    rw [Nat.sub_sub_self hk.le, odd] at second
    have shift : c ^ (k * (2 * j + 1)) = c ^ k * c ^ (k * (2 * j)) := by
      rw [← pow_add]
      congr 1
      ring
    have square : (c ^ 2) ^ (k * j) = c ^ (k * (2 * j)) := by
      rw [← pow_mul]
      congr 1
      ring
    simp only [bin, mirror, packedSpectrum, square]
    rw [← first, show conj (term c X (2 * j + 1) (Q + 1 - k)) =
      -(conj (X (Q + 1 - k)) * c ^ (k * (2 * j + 1))) by rw [second]; ring, term, term, shift]
    ring
  have last : mirror (Q + 1) = conj (X (Q + 1)) - I * conj (X (Q + 1)) := by
    simp only [mirror, term, even, odd, mul_one, mul_neg_one, map_neg]
    ring
  have first : bin 0 = X 0 + I * X 0 := by
    simp only [bin, term, Nat.zero_mul, pow_zero, mul_one]
  calc dft (Q + 1) (c ^ 2) (packedSpectrum (Q + 1) c X) j
      = ∑ k ∈ range (Q + 1), (bin k + mirror (Q + 1 - k)) :=
        Finset.sum_congr rfl fun k hk => split k (Finset.mem_range.mp hk)
    _ = ∑ k ∈ range (Q + 1), bin k + ∑ k ∈ range (Q + 1), mirror (k + 1) := by
        rw [Finset.sum_add_distrib, reflected]
    _ = _ := by
        rw [Finset.sum_range_succ', Finset.sum_range_succ, first, last, ← innerSum, ← innerSum]
        simp only [bin, mirror, Finset.sum_add_distrib, ← Finset.mul_sum]
        ring

/- c2r: interleaving the packed transform gives the full inverse, but for the imaginary parts of the
two real bins, which only the full path drops. -/
theorem packedInverse {P : ℕ} (positive : 0 < P) (ok : UnitRoot (2 * P) c) (middle : c ^ P = -1) (X : ℕ → ℂ) (j : ℕ) :
    (dft P (c ^ 2) (packedSpectrum P c X) j).re =
      (dft (2 * P) c (hermitianFull (2 * P) X) (2 * j)).re - (X 0).im - (X P).im ∧
    (dft P (c ^ 2) (packedSpectrum P c X) j).im =
      (dft (2 * P) c (hermitianFull (2 * P) X) (2 * j + 1)).re + (X 0).im - (X P).im := by
  obtain ⟨Q, rfl⟩ : ∃ Q, P = Q + 1 := ⟨P - 1, by omega⟩
  have odd : ((-1 : ℂ)) ^ (2 * j + 1) = -1 := by rw [pow_succ, pow_mul, neg_one_sq, one_pow, one_mul]
  have even : ((-1 : ℂ)) ^ (2 * j) = 1 := by rw [pow_mul, neg_one_sq, one_pow]
  rw [packedSpectrumSum ok.unit middle, hermitianFullSum ok middle, hermitianFullSum ok middle, odd, even]
  constructor
  · simp
    ring
  · simp
    ring

end Inverse

section Mirror
variable {n : ℕ} {c : ℂ}

/- The bins above the middle from those below. -/
def mirrored (n : ℕ) (X : ℕ → ℂ) (k : ℕ) : ℂ := if k < n / 2 + 1 then X k else conj (X (n - k))

/- The imaginary parts that `hermitianFull` drops do not reach the real part of the inverse. -/
theorem hermitianFullRe (middle : n % 2 = 0 → c ^ (n / 2) = -1) (X : ℕ → ℂ) (t : ℕ) :
    (dft n c (hermitianFull n X) t).re = (dft n c (mirrored n X) t).re := by
  unfold dft
  rw [Complex.re_sum, Complex.re_sum]
  refine Finset.sum_congr rfl fun k _ => ?_
  by_cases real : k = 0 ∨ (n % 2 = 0 ∧ k = n / 2)
  · have low : k < n / 2 + 1 := by omega
    have flat : (c ^ (k * t)).im = 0 := by
      rcases real with rfl | ⟨even, rfl⟩
      · simp
      · rw [pow_mul, middle even]
        rcases neg_one_pow_eq_or ℂ t with one | minus
        · rw [one, Complex.one_im]
        · rw [minus, Complex.neg_im, Complex.one_im, neg_zero]
    rw [Complex.mul_re, Complex.mul_re, flat]
    unfold hermitianFull mirrored
    simp only [if_pos low, mul_zero]
  · have same : hermitianFull n X k = mirrored n X k := by
      unfold hermitianFull mirrored
      simp only [if_neg real]
      by_cases low : k < n / 2 + 1
      · simp only [if_pos low, Complex.eta]
      · simp only [if_neg low]
        apply Complex.ext <;> simp
    rw [same]

theorem mirroredCongr {X Y : ℕ → ℂ} (same : ∀ k < n / 2 + 1, X k = Y k) {k : ℕ} (hk : k < n) :
    mirrored n X k = mirrored n Y k := by
  unfold mirrored
  by_cases low : k < n / 2 + 1
  · rw [if_pos low, if_pos low, same k low]
  · rw [if_neg low, if_neg low, same (n - k) (by omega)]

theorem reverseTwice {j : ℕ} (hj : j < n) : (n - (n - j) % n) % n = j := by
  rcases Nat.eq_zero_or_pos j with rfl | positive
  · simp
  · rw [Nat.mod_eq_of_lt (show n - j < n by omega), Nat.sub_sub_self hj.le, Nat.mod_eq_of_lt hj]

/- The conjugate of a transform is the transform of the conjugates in reverse. -/
theorem conjDft (ok : UnitRoot n c) (x : ℕ → ℂ) (k : ℕ) :
    conj (dft n c x k) = dft n c (fun j => conj (x ((n - j) % n))) k := by
  have turn : ∀ j < n, conj (c ^ (j * k)) = c ^ ((n - j) % n * k) := by
    intro j hj
    refine conjOfInverse (unitPow ok.unit _) ?_
    rw [← pow_add, ← Nat.add_mul, pow_mul]
    have whole : c ^ (j + (n - j) % n) = 1 := by
      rw [pow_add, powMod ok.root, ← pow_add, Nat.add_sub_cancel' hj.le, ok.root]
    rw [whole, one_pow]
  unfold dft
  rw [map_sum]
  refine Finset.sum_nbij' (fun j => (n - j) % n) (fun j => (n - j) % n) ?_ ?_ ?_ ?_ ?_
  · intro j hj
    exact Finset.mem_range.mpr (Nat.mod_lt _ (Nat.zero_lt_of_lt (Finset.mem_range.mp hj)))
  · intro j hj
    exact Finset.mem_range.mpr (Nat.mod_lt _ (Nat.zero_lt_of_lt (Finset.mem_range.mp hj)))
  · intro j hj
    exact reverseTwice (Finset.mem_range.mp hj)
  · intro j hj
    exact reverseTwice (Finset.mem_range.mp hj)
  · intro j hj
    have inside := Finset.mem_range.mp hj
    simp only [map_mul, turn j inside, reverseTwice inside]

/- The spectrum of a real block from the first `n1 / 2 + 1` frequencies of each row. -/
def mirrored2 (n0 n1 : ℕ) (X : ℕ → ℂ) (o : ℕ) : ℂ :=
  if o % n1 < n1 / 2 + 1 then X (o / n1 * (n1 / 2 + 1) + o % n1)
  else conj (X ((n0 - o / n1) % n0 * (n1 / 2 + 1) + (n1 - o % n1)))

/- Columns first: each row of transformed columns is completed on its own. -/
theorem mirroredColumns {n0 n1 k1 : ℕ} {c0 : ℂ} (ok : UnitRoot n0 c0) (c1 : ℂ) (X : ℕ → ℂ) (k0 : ℕ) (hk : k1 < n1) :
    dft n1 c1 (mirrored n1 fun j => dft n0 c0 (fun i => X (i * (n1 / 2 + 1) + j)) k0) k1 =
      dft2 n0 n1 c0 c1 (mirrored2 n0 n1 X) (k0 * n1 + k1) := by
  have column : ∀ j < n1, mirrored n1 (fun j => dft n0 c0 (fun i => X (i * (n1 / 2 + 1) + j)) k0) j =
      dft n0 c0 (fun i => mirrored2 n0 n1 X (i * n1 + j)) k0 := by
    intro j hj
    unfold mirrored mirrored2
    by_cases low : j < n1 / 2 + 1
    · simp only [mulAddDiv hj, mulAddMod hj, if_pos low]
    · simp only [mulAddDiv hj, mulAddMod hj, if_neg low]
      exact conjDft ok _ k0
  rw [dftCongr column]
  unfold dft2
  rw [mulAddDiv hk, mulAddMod hk, Finset.sum_comm]
  unfold dft
  refine Finset.sum_congr rfl fun j1 _ => ?_
  rw [Finset.sum_mul]
  refine Finset.sum_congr rfl fun j0 _ => ?_
  ring

/- The spectrum of a real block of three dimensions from the first `n2 / 2 + 1` frequencies of each row. -/
def mirrored3 (n0 n1 n2 : ℕ) (X : ℕ → ℂ) (o : ℕ) : ℂ :=
  if o % n2 < n2 / 2 + 1 then X (cube n1 (n2 / 2 + 1) (o / n2 / n1) (o / n2 % n1) (o % n2))
  else conj (X (cube n1 (n2 / 2 + 1) ((n0 - o / n2 / n1) % n0) ((n1 - o / n2 % n1) % n1) (n2 - o % n2)))

/- The two outer axes first: each transformed row is completed on its own. -/
theorem mirroredPlanes {n0 n1 n2 k1 k2 : ℕ} {c0 c1 : ℂ} (ok0 : UnitRoot n0 c0) (ok1 : UnitRoot n1 c1) (c2 : ℂ)
    (X : ℕ → ℂ) (k0 : ℕ) (h1 : k1 < n1) (h2 : k2 < n2) :
    dft n2 c2 (mirrored n2 fun j2 => dft n0 c0 (fun j0 => dft n1 c1 (fun j1 => X (cube n1 (n2 / 2 + 1) j0 j1 j2)) k1) k0) k2 =
      dft3 n0 n1 n2 c0 c1 c2 (mirrored3 n0 n1 n2 X) (cube n1 n2 k0 k1 k2) := by
  have plane : ∀ j2 < n2,
      mirrored n2 (fun j2 => dft n0 c0 (fun j0 => dft n1 c1 (fun j1 => X (cube n1 (n2 / 2 + 1) j0 j1 j2)) k1) k0) j2 =
        dft n0 c0 (fun j0 => dft n1 c1 (fun j1 => mirrored3 n0 n1 n2 X (cube n1 n2 j0 j1 j2)) k1) k0 := by
    intro j2 inside
    by_cases low : j2 < n2 / 2 + 1
    · unfold mirrored
      rw [if_pos low]
      refine dftCongr fun j0 _ => dftCongr fun j1 hj1 => ?_
      unfold mirrored3
      rw [cubeMod inside, cubeDiv inside, mulAddDiv hj1, mulAddMod hj1, if_pos low]
    · unfold mirrored
      rw [if_neg low, conjDft ok0]
      refine dftCongr fun j0 _ => ?_
      rw [conjDft ok1]
      refine dftCongr fun j1 hj1 => ?_
      unfold mirrored3
      rw [cubeMod inside, cubeDiv inside, mulAddDiv hj1, mulAddMod hj1, if_neg low]
  rw [dftCongr plane, dftSwap, ← dft3Split h1 h2]
  refine dftCongr fun j0 _ => ?_
  exact dftSwap n2 n1 c2 c1 (fun j1 j2 => mirrored3 n0 n1 n2 X (cube n1 n2 j0 j1 j2)) k1 k2

end Mirror

end FlagFft.Library.RealDft
