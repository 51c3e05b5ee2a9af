import FlagFft.Library.Indexing
import Mathlib.Algebra.BigOperators.Ring.Finset
import Mathlib.Algebra.BigOperators.Intervals
import Mathlib.Tactic.Ring

/-! The discrete Fourier transform over a commutative ring, indexed by naturals.
The splitting lemma is the decimation step that mixed-radix and four-step algorithms iterate. -/
namespace FlagFft.Library.Dft
open Finset (range)
open Library.Indexing

variable {R : Type*} [CommRing R]

def dft (n : ℕ) (w : R) (x : ℕ → R) (k : ℕ) : R := ∑ j ∈ range n, x j * w ^ (j * k)

theorem dftCongr {n : ℕ} {w : R} {x y : ℕ → R} {k} (same : ∀ j < n, x j = y j) :
    dft n w x k = dft n w y k :=
  Finset.sum_congr rfl (fun j hj => by rw [same j (Finset.mem_range.mp hj)])

@[simp] theorem dftOne {w : R} {x : ℕ → R} {k} : dft 1 w x k = x 0 := by simp [dft]

/- The transform of a pulse is flat. -/
theorem dftPulse {n : ℕ} {w c : R} {k : ℕ} (positive : 0 < n) : dft n w (fun j => if j = 0 then c else 0) k = c := by
  unfold dft
  rw [Finset.sum_eq_single_of_mem 0 (Finset.mem_range.mpr positive) fun j _ later => by simp [later]]
  simp

theorem dftZero {n : ℕ} {w : R} {k : ℕ} : dft n w (fun _ => 0) k = 0 := by simp [dft]

/- The frequency only matters modulo the length. -/
theorem powMod {w : R} {n : ℕ} (root : w ^ n = 1) (e : ℕ) : w ^ (e % n) = w ^ e := by
  conv_rhs => rw [← Nat.div_add_mod e n]
  rw [pow_add, pow_mul, root, one_pow, one_mul]

theorem dftMod {n : ℕ} {w : R} {x : ℕ → R} (root : w ^ n = 1) (k : ℕ) :
    dft n w x (k % n) = dft n w x k := by
  refine Finset.sum_congr rfl fun j _ => ?_
  rw [← powMod root (j * (k % n)), ← powMod root (j * k), Nat.mul_mod_mod]

theorem sumRangeMul {M : Type*} [AddCommMonoid M] (a b : ℕ) (g : ℕ → M) :
    ∑ i ∈ range (a * b), g i = ∑ u ∈ range a, ∑ t ∈ range b, g (u * b + t) := by
  induction a with
  | zero => simp
  | succ a ih => rw [Nat.succ_mul, Finset.sum_range_add, ih, Finset.sum_range_succ]

/- Decimation in time: `f` transforms of length `F` of the subsequences, a twiddle,
and one transform of length `f` across them give the transform of length `F * f`. -/
theorem dftSplit {F f : ℕ} {z : R} (root : z ^ (F * f) = 1) (y : ℕ → R) (P q : ℕ) :
    ∑ t ∈ range f, dft F (z ^ f) (fun u => y (u * f + t)) P * z ^ (P * t) * (z ^ F) ^ (t * q) =
      dft (F * f) z y (P + F * q) := by
  have term : ∀ u t, y (u * f + t) * (z ^ f) ^ (u * P) * z ^ (P * t) * (z ^ F) ^ (t * q) =
      y (u * f + t) * z ^ ((u * f + t) * (P + F * q)) := by
    intro u t
    have exponent : (u * f + t) * (P + F * q) =
        f * (u * P) + P * t + F * (t * q) + F * f * (u * q) := by ring
    rw [exponent, pow_add, pow_add, pow_add, pow_mul, pow_mul z F, pow_mul z (F * f), root]
    ring
  rw [dft, sumRangeMul, Finset.sum_comm]
  refine Finset.sum_congr rfl fun t _ => ?_
  rw [dft, Finset.sum_mul, Finset.sum_mul]
  exact Finset.sum_congr rfl fun u _ => term u t

/- Two dimensions, in row-major order: frequency `o / n1` along the columns, `o % n1` along the rows. -/
def dft2 (n0 n1 : ℕ) (w0 w1 : R) (x : ℕ → R) (o : ℕ) : R :=
  ∑ j0 ∈ range n0, ∑ j1 ∈ range n1, x (j0 * n1 + j1) * (w0 ^ (j0 * (o / n1)) * w1 ^ (j1 * (o % n1)))

theorem dft2Split {n0 n1 : ℕ} {w0 w1 : R} {x : ℕ → R} {k0 k1 : ℕ} (inside : k1 < n1) :
    dft n0 w0 (fun j0 => dft n1 w1 (fun j1 => x (j0 * n1 + j1)) k1) k0 = dft2 n0 n1 w0 w1 x (k0 * n1 + k1) := by
  unfold dft2
  rw [mulAddDiv inside, mulAddMod inside]
  refine Finset.sum_congr rfl fun j0 _ => ?_
  unfold dft
  rw [Finset.sum_mul]
  refine Finset.sum_congr rfl fun j1 _ => ?_
  ring

theorem dft2Congr {n0 n1 : ℕ} {w0 w1 : R} {x y : ℕ → R} {o : ℕ} (same : ∀ j < n0 * n1, x j = y j) :
    dft2 n0 n1 w0 w1 x o = dft2 n0 n1 w0 w1 y o := by
  refine Finset.sum_congr rfl fun j0 h0 => Finset.sum_congr rfl fun j1 h1 => ?_
  rw [same _ (mulAddLt (Finset.mem_range.mp h0) (Finset.mem_range.mp h1))]

/- Transforms along different axes commute. -/
theorem dftSwap (n m : ℕ) (w v : R) (x : ℕ → ℕ → R) (k l : ℕ) :
    dft n w (fun j => dft m v (fun i => x i j) k) l = dft m v (fun i => dft n w (fun j => x i j) l) k := by
  unfold dft
  simp only [Finset.sum_mul]
  rw [Finset.sum_comm]
  refine Finset.sum_congr rfl fun i _ => Finset.sum_congr rfl fun j _ => ?_
  ring

/- Three dimensions, in row-major order. -/
def dft3 (n0 n1 n2 : ℕ) (w0 w1 w2 : R) (x : ℕ → R) (o : ℕ) : R :=
  ∑ j0 ∈ range n0, ∑ j1 ∈ range n1, ∑ j2 ∈ range n2, x (cube n1 n2 j0 j1 j2) *
    (w0 ^ (j0 * (o / n2 / n1)) * w1 ^ (j1 * (o / n2 % n1)) * w2 ^ (j2 * (o % n2)))

theorem dft3Split {n0 n1 n2 : ℕ} {w0 w1 w2 : R} {x : ℕ → R} {k0 k1 k2 : ℕ} (h1 : k1 < n1) (h2 : k2 < n2) :
    dft n0 w0 (fun j0 => dft n1 w1 (fun j1 => dft n2 w2 (fun j2 => x (cube n1 n2 j0 j1 j2)) k2) k1) k0 =
      dft3 n0 n1 n2 w0 w1 w2 x (cube n1 n2 k0 k1 k2) := by
  unfold dft3
  rw [cubeMod h2, cubeDiv h2, mulAddDiv h1, mulAddMod h1]
  refine Finset.sum_congr rfl fun j0 _ => ?_
  unfold dft
  rw [Finset.sum_mul]
  refine Finset.sum_congr rfl fun j1 _ => ?_
  rw [Finset.sum_mul, Finset.sum_mul]
  refine Finset.sum_congr rfl fun j2 _ => ?_
  ring

theorem dft3Congr {n0 n1 n2 : ℕ} {w0 w1 w2 : R} {x y : ℕ → R} {o : ℕ} (same : ∀ j < n0 * n1 * n2, x j = y j) :
    dft3 n0 n1 n2 w0 w1 w2 x o = dft3 n0 n1 n2 w0 w1 w2 y o := by
  refine Finset.sum_congr rfl fun j0 h0 => Finset.sum_congr rfl fun j1 h1 => Finset.sum_congr rfl fun j2 h2 => ?_
  rw [same _ (cubeLt (Finset.mem_range.mp h0) (Finset.mem_range.mp h1) (Finset.mem_range.mp h2))]

/- The transform of a pulse anywhere. -/
theorem dft3Pulse {n0 n1 n2 : ℕ} {w0 w1 w2 c : R} {e o : ℕ} (inside : e < n0 * n1 * n2) :
    dft3 n0 n1 n2 w0 w1 w2 (fun j => if j = e then c else 0) o =
      c * (w0 ^ (e / n2 / n1 * (o / n2 / n1)) * w1 ^ (e / n2 % n1 * (o / n2 % n1)) * w2 ^ (e % n2 * (o % n2))) := by
  obtain ⟨i0, h0, i1, h1, i2, h2, rfl⟩ := cubeOf inside
  have single {j0 j1 j2 : ℕ} (l1 : j1 < n1) (l2 : j2 < n2) :
      cube n1 n2 j0 j1 j2 = cube n1 n2 i0 i1 i2 ↔ j0 = i0 ∧ j1 = i1 ∧ j2 = i2 := by
    refine ⟨fun same => ?_, fun ⟨first, second, third⟩ => by rw [first, second, third]⟩
    obtain ⟨plane, third⟩ := mulAddInj l2 h2 same
    obtain ⟨first, second⟩ := mulAddInj l1 h1 plane
    exact ⟨first, second, third⟩
  unfold dft3
  rw [cubeMod h2, cubeDiv h2, mulAddDiv h1, mulAddMod h1, Finset.sum_eq_single_of_mem i0 (Finset.mem_range.mpr h0),
    Finset.sum_eq_single_of_mem i1 (Finset.mem_range.mpr h1), Finset.sum_eq_single_of_mem i2 (Finset.mem_range.mpr h2)]
  · simp
  · intro j2 less other
    have apart : ¬ cube n1 n2 i0 i1 j2 = cube n1 n2 i0 i1 i2 := fun same =>
      other ((single h1 (Finset.mem_range.mp less)).mp same).2.2
    simp only [if_neg apart, zero_mul]
  · intro j1 less other
    refine Finset.sum_eq_zero fun j2 member => ?_
    have apart : ¬ cube n1 n2 i0 j1 j2 = cube n1 n2 i0 i1 i2 := fun same =>
      other ((single (Finset.mem_range.mp less) (Finset.mem_range.mp member)).mp same).2.1
    simp only [if_neg apart, zero_mul]
  · intro j0 _ other
    refine Finset.sum_eq_zero fun j1 first => Finset.sum_eq_zero fun j2 second => ?_
    have apart : ¬ cube n1 n2 j0 j1 j2 = cube n1 n2 i0 i1 i2 := fun same =>
      other ((single (Finset.mem_range.mp first) (Finset.mem_range.mp second)).mp same).1
    simp only [if_neg apart, zero_mul]

theorem dft3Add {n0 n1 n2 : ℕ} {w0 w1 w2 : R} {x y : ℕ → R} {o : ℕ} :
    dft3 n0 n1 n2 w0 w1 w2 (fun j => x j + y j) o = dft3 n0 n1 n2 w0 w1 w2 x o + dft3 n0 n1 n2 w0 w1 w2 y o := by
  simp only [dft3, add_mul, Finset.sum_add_distrib]

theorem dft3Zero {n0 n1 n2 : ℕ} {w0 w1 w2 : R} {o : ℕ} : dft3 n0 n1 n2 w0 w1 w2 (fun _ => 0) o = 0 := by simp [dft3]

end FlagFft.Library.Dft
