import FlagFft.Library.Dft
import Mathlib.Algebra.Field.GeomSum
import Mathlib.RingTheory.RootsOfUnity.PrimitiveRoots

/-! Over a field with a primitive root, the transform has an inverse on both sides. -/
namespace FlagFft.Library.Inverse
open Finset (range)
open Library.Dft

variable {K : Type*} [Field K] {n : ℕ} {w : K}

def idft (n : ℕ) (w : K) (X : ℕ → K) (t : ℕ) : K := (n : K)⁻¹ * dft n w⁻¹ X t

theorem orthogonal (primitive : IsPrimitiveRoot w n) {t s : ℕ} (ht : t < n) (hs : s < n) :
    ∑ q ∈ range n, w ^ (t * q) * w⁻¹ ^ (q * s) = if t = s then (n : K) else 0 := by
  have nonzero : w ≠ 0 := primitive.ne_zero (by omega)
  have geometric : ∀ q, w ^ (t * q) * w⁻¹ ^ (q * s) = (w ^ t * (w ^ s)⁻¹) ^ q := by
    intro q
    rw [mul_pow, ← pow_mul, ← inv_pow, ← pow_mul, Nat.mul_comm s q]
  simp only [geometric]
  by_cases same : t = s
  · simp [same, nonzero]
  · have ratio : w ^ t * (w ^ s)⁻¹ ≠ 1 := by
      intro one
      rw [mul_inv_eq_one₀ (pow_ne_zero s nonzero)] at one
      exact same (primitive.pow_inj ht hs one)
    have closed : (w ^ t * (w ^ s)⁻¹) ^ n = 1 := by
      rw [mul_pow, inv_pow, ← pow_mul, ← pow_mul, Nat.mul_comm t, Nat.mul_comm s, pow_mul, pow_mul, primitive.pow_eq_one]
      simp
    rw [geom_sum_eq ratio, closed, sub_self, zero_div, if_neg same]

theorem idftDft (primitive : IsPrimitiveRoot w n) (nonzero : (n : K) ≠ 0) (v : ℕ → K) {t : ℕ} (ht : t < n) :
    idft n w (dft n w v) t = v t := by
  have swap : dft n w⁻¹ (dft n w v) t = ∑ j ∈ range n, v j * ∑ q ∈ range n, w ^ (j * q) * w⁻¹ ^ (q * t) := by
    simp only [dft, Finset.sum_mul, Finset.mul_sum, mul_assoc]
    exact Finset.sum_comm
  rw [idft, swap, Finset.sum_eq_single_of_mem t (Finset.mem_range.mpr ht), orthogonal primitive ht ht, if_pos rfl]
  · field_simp
  · intro j hj other
    rw [orthogonal primitive (Finset.mem_range.mp hj) ht, if_neg other, mul_zero]

theorem dftIdft (primitive : IsPrimitiveRoot w n) (nonzero : (n : K) ≠ 0) (X : ℕ → K) {q : ℕ} (hq : q < n) :
    dft n w (idft n w X) q = X q := by
  have back := idftDft primitive.inv nonzero X hq
  have scaled : dft n w (idft n w X) q = (n : K)⁻¹ * dft n w (dft n w⁻¹ X) q := by
    rw [dft, dft, Finset.mul_sum]
    exact Finset.sum_congr rfl fun t _ => by rw [idft, mul_assoc]
  rw [scaled, ← back, idft, inv_inv]

theorem dftInj (primitive : IsPrimitiveRoot w n) (nonzero : (n : K) ≠ 0) {v v' : ℕ → K}
    (same : ∀ q < n, dft n w v q = dft n w v' q) {t : ℕ} (ht : t < n) : v t = v' t := by
  rw [← idftDft primitive nonzero v ht, ← idftDft primitive nonzero v' ht, idft, idft, dftCongr same]

end FlagFft.Library.Inverse
