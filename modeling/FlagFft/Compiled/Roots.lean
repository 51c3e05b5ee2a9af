import FlagFft.Codegen.BluesteinTables
import FlagFft.Library.ArbitraryLength
import FlagFft.Real.Packed
import Mathlib.RingTheory.RootsOfUnity.Complex

/-! The tables a node uploads when it is compiled, entry by entry as the host computes their angles, and the powers of
the root of unity they hold. -/
namespace FlagFft.Compiled
open Library.Dft Library.RealDft Library.ArbitraryLength FlagFft.Real Codegen.BluesteinTables
open Complex (I)
open scoped ComplexConjugate

section Roots

/- exp(-2 pi i / n) forward, its conjugate for the inverse transform. -/
noncomputable def root (direction : Direction) (n : ℕ) : ℂ :=
  match direction with
  | .forward => forwardRoot n
  | .inverse => conj (forwardRoot n)

variable {direction : Direction} {n : ℕ}

theorem forwardRootInverse : conj (forwardRoot n) = (forwardRoot n)⁻¹ := by
  unfold forwardRoot
  rw [← Complex.exp_conj, ← Complex.exp_neg, map_mul, Complex.conj_I, Complex.conj_ofReal, mul_neg]

theorem rootNonzero : root direction n ≠ 0 := by
  cases direction with
  | forward => exact Complex.exp_ne_zero _
  | inverse => exact (map_ne_zero _).mpr (Complex.exp_ne_zero _)

theorem rootStar : star (root direction n) = (root direction n)⁻¹ := by
  cases direction with
  | forward => exact forwardRootInverse
  | inverse => rw [root, forwardRootInverse, inv_inv, star_inv₀, ← starRingEnd_apply, forwardRootInverse, inv_inv]

theorem forwardRootPrimitive (positive : 0 < n) : IsPrimitiveRoot (forwardRoot n) n := by
  have inverse : forwardRoot n = (Complex.exp (2 * Real.pi * I / n))⁻¹ := by
    rw [← Complex.exp_neg, forwardRoot]
    congr 1
    push_cast
    ring
  rw [inverse]
  exact (Complex.isPrimitiveRoot_exp n positive.ne').inv

theorem rootPrimitive (positive : 0 < n) : IsPrimitiveRoot (root direction n) n := by
  cases direction with
  | forward => exact forwardRootPrimitive positive
  | inverse =>
    rw [root, forwardRootInverse]
    exact (forwardRootPrimitive positive).inv

theorem rootWhole (positive : 0 < n) : root direction n ^ n = 1 := (rootPrimitive positive).pow_eq_one

theorem forwardRootMul {a b : ℕ} (positive : 0 < b) : forwardRoot (a * b) ^ b = forwardRoot a := by
  have cast : (b : ℝ) ≠ 0 := Nat.cast_ne_zero.mpr positive.ne'
  rw [forwardRootPow, forwardRoot]
  congr 3
  push_cast
  rw [mul_div_mul_right _ _ cast]

theorem rootMul {a b : ℕ} (positive : 0 < b) : root direction (a * b) ^ b = root direction a := by
  cases direction with
  | forward => exact forwardRootMul positive
  | inverse => rw [root, root, ← map_pow, forwardRootMul positive]

theorem rootFactor {f : ℕ} (positive : 0 < n) (divides : f ∣ n) : root direction n ^ (n / f) = root direction f := by
  obtain ⟨b, rfl⟩ := divides
  rw [Nat.mul_div_cancel_left b (Nat.pos_of_mul_pos_right positive)]
  exact rootMul (Nat.pos_of_mul_pos_left positive)

theorem rootSquare : root direction (2 * n) * root direction (2 * n) = root direction n := by
  rw [← sq, Nat.mul_comm, rootMul Nat.two_pos]

end Roots

section Angles

/- One entry of a table: the cosine and the sine of its angle. -/
noncomputable def polar (angle : ℝ) : ℂ := ⟨Real.cos angle, Real.sin angle⟩

def sign : Direction → ℤ
  | .forward => -1
  | .inverse => 1

def directionName : Direction → String
  | .forward => "forward"
  | .inverse => "inverse"

/- sign * kPi * reduced / n -/
noncomputable def chirpAngle (n : ℕ) (phase : ℤ) : ℝ := phase * Real.pi / n

noncomputable def chirpTable (direction : Direction) (n idx : ℕ) : ℂ :=
  match (buildRawBluesteinChirp n (directionName direction = "inverse"))[idx]? with
  | some phase => polar (chirpAngle n phase)
  | none => 0

noncomputable def convolutionTable (direction : Direction) (n m idx : ℕ) : ℂ :=
  match (buildRawBluesteinB (directionName direction) n m)[idx]? with
  | some (some phase) => polar (chirpAngle n phase)
  | _ => 0

/- sign * 2.0 * kPi * idx / n -/
noncomputable def buildRawRaderConvKernel (direction : Direction) (n : ℕ) (idx : List ℕ) (offset : ℕ) : ℂ :=
  polar (sign direction * (2 : ℕ) * Real.pi * idx.getD offset 0 / n)

variable {direction : Direction} {n m idx : ℕ}

theorem polarExp (angle : ℝ) : polar angle = Complex.exp (angle * I) := by
  apply Complex.ext
  · rw [Complex.exp_ofReal_mul_I_re, polar]
  · rw [Complex.exp_ofReal_mul_I_im, polar]

theorem polarRoot (k : ℕ) : polar (sign direction * (2 : ℕ) * Real.pi * k / n) = root direction n ^ k := by
  cases direction with
  | forward =>
    rw [polarExp, root, forwardRootPow, sign]
    congr 3
    push_cast
    ring
  | inverse =>
    rw [polarExp, root, ← map_pow, forwardRootPow, ← Complex.exp_conj, map_mul, Complex.conj_I, Complex.conj_ofReal, sign]
    congr 1
    push_cast
    ring

theorem raderConvKernel (idx : List ℕ) (offset : ℕ) :
    buildRawRaderConvKernel direction n idx offset = root direction n ^ idx.getD offset 0 := polarRoot _

/- Half turns are turns of twice the length. -/
theorem chirpEntry (positive : 0 < n) (k : ℕ) : polar (chirpAngle n (sign direction * k)) = root direction (2 * n) ^ k := by
  have cast : (n : ℝ) ≠ 0 := Nat.cast_ne_zero.mpr positive.ne'
  rw [← polarRoot]
  congr 1
  unfold chirpAngle
  push_cast
  field_simp

theorem chirpInverse (positive : 0 < n) (k : ℕ) :
    polar (chirpAngle n (-sign direction * k)) = (root direction (2 * n))⁻¹ ^ k := by
  rw [inv_pow, ← chirpEntry positive, polarExp, polarExp, ← Complex.exp_neg, ← neg_mul]
  congr 2
  unfold chirpAngle
  push_cast
  ring

theorem reducedPower {z : ℂ} (whole : z ^ (2 * n) = 1) (inside : idx < n) (small : n ≤ 94906267) :
    z ^ reduced n idx = chirp z idx := by
  rw [(lengthIff (by omega)).mpr small idx inside, powMod whole, chirp]

theorem chirpTableEntry (inside : idx < n) (small : n ≤ 94906267) :
    chirpTable direction n idx = chirp (root direction (2 * n)) idx := by
  have positive : 0 < n := Nat.zero_lt_of_lt inside
  have entry : (buildRawBluesteinChirp n (directionName direction = "inverse"))[idx]? =
      some (sign direction * reduced n idx) := by
    unfold buildRawBluesteinChirp
    rw [List.getElem?_map, List.getElem?_range inside]
    cases direction <;> rfl
  unfold chirpTable
  rw [entry]
  exact (chirpEntry positive _).trans (reducedPower (rootWhole (by omega)) inside small)

/- An entry is written by its own index, or by the index it mirrors, or not at all. -/
theorem entriesBlank {sign : ℤ} {k j : ℕ} (upTo : k ≤ n) (room : 2 * n - 1 ≤ m) (low : k ≤ j) (high : j + k ≤ m)
    (inside : j < m) : ((List.range k).foldl (mirrored sign n m) (List.replicate m none))[j]? = some none := by
  induction k with
  | zero => simp [inside]
  | succ k ih =>
    rw [List.range_succ, List.foldl_append, List.foldl_cons, List.foldl_nil,
      mirroredEntry (entriesWritten (by omega) room).1 (by omega), if_neg (by omega)]
    exact ih (by omega) (by omega) (by omega)

theorem convolutionTableEntry (positive : 0 < n) (small : n ≤ 94906267) (room : 2 * n - 1 ≤ m) (inside : idx < m) :
    convolutionTable direction n m idx = mirroredChirp n m (root direction (2 * n)) idx := by
  have whole : (root direction (2 * n))⁻¹ ^ (2 * n) = 1 := by rw [inv_pow, rootWhole (by omega), inv_one]
  have opposite : (if directionName direction = "inverse" then -1 else 1 : ℤ) = -sign direction := by cases direction <;> rfl
  have value : ∀ i < n, polar (chirpAngle n (phase (-sign direction) n i)) = chirp (root direction (2 * n))⁻¹ i :=
    fun i below => (chirpInverse positive _).trans (reducedPower whole below small)
  unfold convolutionTable buildRawBluesteinB
  rw [opposite, mirroredChirp]
  split_ifs with first second
  · rw [((entriesWritten le_rfl room).2 idx first).1]
    exact value idx first
  · have mirror := ((@entriesWritten (-sign direction) n m n le_rfl room).2 (m - idx) (by omega)).2 (by omega)
    rw [Nat.sub_sub_self inside.le] at mirror
    rw [mirror]
    exact value (m - idx) (by omega)
  · rw [entriesBlank le_rfl room (by omega) (by omega) inside]

end Angles

end FlagFft.Compiled
