import FlagFft.Library.Inverse
import Mathlib.Algebra.Star.BigOperators

/-! Cyclic convolution through the transform, over a field with a conjugation: the inverse transform is a forward one
between two conjugations, so forward transforms are all it takes. -/
namespace FlagFft.Library.Convolution
open Finset (range)
open Library.Dft Library.Inverse

section Cyclic
variable {R : Type*} [CommRing R] {m : ℕ}

def cyclic (m : ℕ) (a b : ℕ → R) (q : ℕ) : R := ∑ i ∈ range m, a i * b ((q + (m - i)) % m)

theorem cyclicCongr {a a' b b' : ℕ → R} {q : ℕ} (first : ∀ i < m, a i = a' i) (second : ∀ i < m, b i = b' i) :
    cyclic m a b q = cyclic m a' b' q := by
  refine Finset.sum_congr rfl fun i member => ?_
  have inside := Finset.mem_range.mp member
  rw [first i inside, second _ (Nat.mod_lt _ (by omega))]

/- A sum over all residues does not see a shift. -/
theorem sumShift {M : Type*} [AddCommMonoid M] {s : ℕ} (within : s ≤ m) (f : ℕ → M) :
    ∑ q ∈ range m, f ((q + s) % m) = ∑ r ∈ range m, f r := by
  have back {a b t : ℕ} (small : a < m) (whole : b + t = m) : ((a + b) % m + t) % m = a := by
    rw [Nat.mod_add_mod, Nat.add_assoc, whole, Nat.add_mod_right, Nat.mod_eq_of_lt small]
  refine Finset.sum_nbij' (fun q => (q + s) % m) (fun r => (r + (m - s)) % m) ?_ ?_ ?_ ?_ fun _ _ => rfl
  · intro q member
    exact Finset.mem_range.mpr (Nat.mod_lt _ (Nat.zero_lt_of_lt (Finset.mem_range.mp member)))
  · intro r member
    exact Finset.mem_range.mpr (Nat.mod_lt _ (Nat.zero_lt_of_lt (Finset.mem_range.mp member)))
  · intro q member
    exact back (Finset.mem_range.mp member) (by omega)
  · intro r member
    exact back (Finset.mem_range.mp member) (by omega)

theorem dftCyclic {v : R} (root : v ^ m = 1) (a b : ℕ → R) (k : ℕ) :
    dft m v (cyclic m a b) k = dft m v a k * dft m v b k := by
  -- for each element of the one sequence, the other one shifted
  have shifted : ∀ i < m, ∑ q ∈ range m, b ((q + (m - i)) % m) * v ^ (q * k) = v ^ (i * k) * dft m v b k := by
    intro i inside
    have term : ∀ q, b ((q + (m - i)) % m) * v ^ (q * k) =
        v ^ (i * k) * (b ((q + (m - i)) % m) * v ^ ((q + (m - i)) % m * k)) := by
      intro q
      have whole : (q + (m - i)) % m * k % m = (q + (m - i)) * k % m := Nat.mod_mul_mod _ _ _
      have exponent : i * k + (q + (m - i)) * k = q * k + m * k := by
        rw [← Nat.add_mul, ← Nat.add_mul]
        congr 1
        omega
      have phase : v ^ (q * k) = v ^ (i * k) * v ^ ((q + (m - i)) % m * k) := by
        rw [← powMod root ((q + (m - i)) % m * k), whole, powMod root, ← pow_add, exponent, pow_add, pow_mul v m, root,
          one_pow, mul_one]
      rw [phase]
      ring
    simp only [term, ← Finset.mul_sum]
    rw [sumShift (Nat.sub_le m i) fun r => b r * v ^ (r * k), dft]
  calc dft m v (cyclic m a b) k
      = ∑ i ∈ range m, a i * ∑ q ∈ range m, b ((q + (m - i)) % m) * v ^ (q * k) := by
        simp only [dft, cyclic, Finset.sum_mul, Finset.mul_sum, mul_assoc]
        exact Finset.sum_comm
    _ = ∑ i ∈ range m, a i * v ^ (i * k) * dft m v b k :=
        Finset.sum_congr rfl fun i member => by rw [shifted i (Finset.mem_range.mp member), mul_assoc]
    _ = dft m v a k * dft m v b k := (Finset.sum_mul _ _ _).symm

end Cyclic

section Conjugate
variable {K : Type*} [Field K] [StarRing K] {m : ℕ} {v : K}

theorem starDft (x : ℕ → K) (k : ℕ) : star (dft m v x k) = dft m (star v) (fun j => star (x j)) k := by
  simp only [dft, star_sum, star_mul', star_pow]

/- Transform, multiply, conjugate, transform, conjugate: the convolution, times the length. -/
theorem forwardConvolution (primitive : IsPrimitiveRoot v m) (unit : star v = v⁻¹) (nonzero : (m : K) ≠ 0)
    (a b : ℕ → K) {q : ℕ} (inside : q < m) :
    star (dft m v (fun k => star (dft m v a k * dft m v b k)) q) = m * cyclic m a b q := by
  have spectrum : (fun k => dft m v a k * dft m v b k) = dft m v (cyclic m a b) :=
    funext fun k => (dftCyclic primitive.pow_eq_one a b k).symm
  calc star (dft m v (fun k => star (dft m v a k * dft m v b k)) q)
      = dft m v⁻¹ (dft m v (cyclic m a b)) q := by
        rw [starDft, unit]
        simp only [star_star, spectrum]
    _ = m * idft m v (dft m v (cyclic m a b)) q := by rw [idft, mul_inv_cancel_left₀ nonzero]
    _ = m * cyclic m a b q := by rw [idftDft primitive nonzero _ inside]

end Conjugate

end FlagFft.Library.Convolution
