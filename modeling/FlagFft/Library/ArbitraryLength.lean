import FlagFft.Library.Convolution
import FlagFft.Library.Generators

/-! Transforms of lengths that need not factor as cyclic convolutions: over the powers of a generator for a prime
length, with a chirp on both sides for any length. -/
namespace FlagFft.Library.ArbitraryLength
open Finset (range)
open Library.Dft Library.Convolution Library.Generators

section Prime
variable {R : Type*} [CommRing R] {p g : ℕ} {w : R}

/- The exponent of the inverse of a power. -/
def inverseExponent (m i : ℕ) : ℕ := if i = 0 then 0 else m - i

theorem inverseExponentLess {m i : ℕ} (inside : i < m) : inverseExponent m i < m := by
  unfold inverseExponent
  split <;> omega

theorem inverseExponentMod {m i : ℕ} (inside : i < m) : inverseExponent m i = (m - i) % m := by
  unfold inverseExponent
  split
  next zero => rw [zero, Nat.sub_zero, Nat.mod_self]
  next later => rw [Nat.mod_eq_of_lt (by omega)]

theorem sumInverse {M : Type*} [AddCommMonoid M] (m : ℕ) (f : ℕ → M) :
    ∑ i ∈ range m, f (inverseExponent m i) = ∑ i ∈ range m, f i := by
  have twice : ∀ i < m, inverseExponent m (inverseExponent m i) = i := by
    intro i inside
    unfold inverseExponent
    split_ifs <;> omega
  refine Finset.sum_nbij' (inverseExponent m) (inverseExponent m) ?_ ?_ ?_ ?_ fun _ _ => rfl
  · exact fun i member => Finset.mem_range.mpr (inverseExponentLess (Finset.mem_range.mp member))
  · exact fun i member => Finset.mem_range.mpr (inverseExponentLess (Finset.mem_range.mp member))
  · exact fun i member => twice i (Finset.mem_range.mp member)
  · exact fun i member => twice i (Finset.mem_range.mp member)

/- The sequence whose convolution with the powers of the root is the transform: the input at the inverse powers. -/
def gathered (p g : ℕ) (x : ℕ → R) (i : ℕ) : R := x (g ^ inverseExponent (p - 1) i % p)

def rootPowers (p g : ℕ) (w : R) (i : ℕ) : R := w ^ (g ^ i % p)

variable [prime : Fact p.Prime] (positive : 0 < g) (less : g < p) (order : orderOf (g : ZMod p) = p - 1)
include positive less

theorem powerPeriod (e : ℕ) : g ^ (e % (p - 1)) % p = g ^ e % p := by
  rw [castPow (Nat.mod_lt _ prime.out.pos), ZMod.natCast_mod, Nat.cast_pow]
  conv_rhs => rw [← Nat.mod_add_div e (p - 1), pow_add, pow_mul, powerWhole positive less, one_pow, mul_one]

include order

theorem sumPowers {M : Type*} [AddCommMonoid M] (f : ℕ → M) :
    ∑ i ∈ range (p - 1), f (g ^ i % p) = ∑ j ∈ range (p - 1), f (j + 1) := by
  have perm := ((powerTablePerm positive less order).map f).sum_eq
  have rows : List.range' 1 (p - 1) = (List.range (p - 1)).map (· + 1) := by
    simp only [List.range'_eq_map_range, Nat.add_comm]
  rw [powerTable, rows, List.map_map, List.map_map] at perm
  exact perm

theorem sumRow {M : Type*} [AddCommMonoid M] (f : ℕ → M) :
    ∑ j ∈ range p, f j = f 0 + ∑ i ∈ range (p - 1), f (g ^ i % p) := by
  have whole := Finset.sum_range_succ' f (p - 1)
  rw [Nat.sub_add_cancel prime.out.pos] at whole
  rw [whole, add_comm, sumPowers positive less order]

/- The first frequency is the sum of the row. -/
theorem primeFirst (x : ℕ → R) : dft p w x 0 = x 0 + dft (p - 1) w (gathered p g x) 0 := by
  simp only [dft, Nat.mul_zero, pow_zero, mul_one, gathered]
  rw [sumInverse (p - 1) fun i => x (g ^ i % p)]
  exact sumRow positive less order x

/- Rader: the other frequencies, in the order of the powers, are a cyclic convolution. -/
theorem primePower (root : w ^ p = 1) (x : ℕ → R) (q : ℕ) :
    dft p w x (g ^ q % p) = x 0 + cyclic (p - 1) (gathered p g x) (rootPowers p g w) q := by
  have product : ∀ i < p - 1, w ^ (g ^ inverseExponent (p - 1) i % p * (g ^ q % p)) =
      rootPowers p g w ((q + (p - 1 - i)) % (p - 1)) := by
    intro i inside
    have exponents : (inverseExponent (p - 1) i + q) % (p - 1) = (q + (p - 1 - i)) % (p - 1) := by
      rw [inverseExponentMod inside, Nat.mod_add_mod, Nat.add_comm]
    unfold rootPowers
    rw [← powMod root (_ * _), ← Nat.mul_mod, ← pow_add, ← powerPeriod positive less (_ + q), exponents]
  have terms : ∑ i ∈ range (p - 1), x (g ^ i % p) * w ^ (g ^ i % p * (g ^ q % p)) =
      cyclic (p - 1) (gathered p g x) (rootPowers p g w) q := by
    rw [← sumInverse (p - 1) fun i => x (g ^ i % p) * w ^ (g ^ i % p * (g ^ q % p))]
    refine Finset.sum_congr rfl fun i member => ?_
    rw [product i (Finset.mem_range.mp member)]
    rfl
  rw [← terms, dft, sumRow positive less order fun j => x j * w ^ (j * (g ^ q % p)), Nat.zero_mul, pow_zero, mul_one]

end Prime

section Chirp
variable {K : Type*} [Field K] {n m : ℕ} {z : K}

/- Powers of a root of twice the length, at the squares. -/
def chirp (z : K) (j : ℕ) : K := z ^ (j * j)

/- The row against the chirp, and zeros up to the length of the convolution. -/
def chirped (n : ℕ) (z : K) (x : ℕ → K) (j : ℕ) : K := if j < n then x j * chirp z j else 0

/- The inverse chirp on both sides of zero. -/
def mirroredChirp (n m : ℕ) (z : K) (i : ℕ) : K :=
  if i < n then chirp z⁻¹ i else if m < i + n then chirp z⁻¹ (m - i) else 0

def distance (j k : ℕ) : ℕ := if j ≤ k then k - j else j - k

/- The distance of two indices as the convolution sees it. -/
theorem mirroredChirpAt (room : 2 * n - 1 ≤ m) {j k : ℕ} (hj : j < n) (hk : k < n) :
    mirroredChirp n m z ((k + (m - j)) % m) = chirp z⁻¹ (distance j k) := by
  unfold distance
  rcases le_or_gt j k with before | after
  · have place : (k + (m - j)) % m = k - j := by
      rw [show k + (m - j) = k - j + m by omega, Nat.add_mod_right, Nat.mod_eq_of_lt (by omega)]
    rw [if_pos before, place, mirroredChirp, if_pos (by omega)]
  · have place : (k + (m - j)) % m = m - (j - k) := by
      rw [show k + (m - j) = m - (j - k) by omega, Nat.mod_eq_of_lt (by omega)]
    have back : m - (m - (j - k)) = j - k := by omega
    rw [if_neg (by omega : ¬ j ≤ k), place, mirroredChirp, if_neg (by omega), if_pos (by omega), back]

theorem squares (j k : ℕ) : j * j + k * k = distance j k * distance j k + 2 * (j * k) := by
  unfold distance
  rcases le_total j k with before | after
  · obtain ⟨d, rfl⟩ := Nat.exists_eq_add_of_le before
    rw [if_pos before, Nat.add_sub_cancel_left]
    ring
  · obtain ⟨d, rfl⟩ := Nat.exists_eq_add_of_le after
    split
    next none_ =>
      obtain rfl : d = 0 := by omega
      simp only [Nat.add_zero, Nat.sub_self]
      ring
    next some_ =>
      rw [Nat.add_sub_cancel_left]
      ring

theorem chirpProduct (nonzero : z ≠ 0) (j k : ℕ) :
    chirp z j * chirp z⁻¹ (distance j k) * chirp z k = (z * z) ^ (j * k) := by
  have both : chirp z j * chirp z k = chirp z (distance j k) * (z * z) ^ (j * k) := by
    unfold chirp
    rw [← pow_add, squares, pow_add, pow_mul z 2, pow_two]
  calc chirp z j * chirp z⁻¹ (distance j k) * chirp z k
      = chirp z⁻¹ (distance j k) * (chirp z j * chirp z k) := by ring
    _ = chirp z⁻¹ (distance j k) * chirp z (distance j k) * (z * z) ^ (j * k) := by rw [both, mul_assoc]
    _ = (z * z) ^ (j * k) := by
      unfold chirp
      rw [← mul_pow, inv_mul_cancel₀ nonzero, one_pow, one_mul]

/- Bluestein: the transform is a convolution between two multiplications with the chirp. -/
theorem chirpTransform (nonzero : z ≠ 0) (room : 2 * n - 1 ≤ m) (x : ℕ → K) {k : ℕ} (hk : k < n) :
    cyclic m (chirped n z x) (mirroredChirp n m z) k * chirp z k = dft n (z * z) x k := by
  have within : n ≤ m := by omega
  unfold cyclic
  rw [← Finset.sum_subset (Finset.range_mono within), dft, Finset.sum_mul]
  · refine Finset.sum_congr rfl fun j member => ?_
    have hj := Finset.mem_range.mp member
    rw [chirped, if_pos hj, mirroredChirpAt room hj hk, ← chirpProduct nonzero j k]
    ring
  · intro j _ outside
    rw [chirped, if_neg fun hj => outside (Finset.mem_range.mpr hj), zero_mul]

end Chirp

end FlagFft.Library.ArbitraryLength
