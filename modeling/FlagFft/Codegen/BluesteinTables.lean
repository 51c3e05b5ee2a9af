import FlagFft.Library.Significand
import Mathlib.Data.Nat.ModEq
import Mathlib.Tactic.Linarith

/-! The tables of Bluestein's algorithm: a phase is the square of an index modulo twice the length, computed in doubles. -/
namespace FlagFft.Codegen.BluesteinTables
open Library.Significand

section Doubles

/- static_cast<double> of a number that is not negative, the product of two doubles and std::fmod, which is exact. -/
def double (x : ℕ) : ℕ := roundEven 53 x

def mulDouble (a b : ℕ) : ℕ := roundEven 53 (a * b)

def fmod (a b : ℕ) : ℕ := a % b

end Doubles

section Tables

def reduced (n idx : ℕ) : ℕ := fmod (mulDouble (double idx) (double idx)) (double (2 * n))

/- The angle of an entry, in parts of pi / n. The entry is its cosine and its sine. -/
def phase (sign : ℤ) (n idx : ℕ) : ℤ := sign * reduced n idx

def buildRawBluesteinChirp (n : ℕ) (inverseSign : Bool) : List ℤ :=
  (List.range n).map fun idx => phase (if inverseSign then 1 else -1) n idx

/- An entry and the one that mirrors it. -/
def mirrored (sign : ℤ) (n m : ℕ) (table : List (Option ℤ)) (idx : ℕ) : List (Option ℤ) :=
  let table := table.set idx (some (phase sign n idx))
  if idx ≠ 0 then table.set (m - idx) (some (phase sign n idx)) else table

/- An entry that is not written is zero. -/
def buildRawBluesteinB (direction : String) (n m : ℕ) : List (Option ℤ) :=
  (List.range n).foldl (mirrored (if direction = "inverse" then -1 else 1) n m) (List.replicate m none)

end Tables

section Reduction
variable {n idx : ℕ}

theorem doubleExact (small : idx < 2 ^ 53) : double idx = idx := roundSmall (by decide) small

theorem reducedRounds (inside : idx < n) (accepted : n ≤ 2 ^ 31 - 1) : reduced n idx = roundEven 53 (idx * idx) % (2 * n) := by
  rw [reduced, fmod, mulDouble, doubleExact (by omega), doubleExact (by omega)]

/- A rounding error is smaller than the modulus. -/
theorem reducedIff (inside : idx < n) (accepted : n ≤ 2 ^ 31 - 1) :
    reduced n idx = idx * idx % (2 * n) ↔ unitOf 53 (idx * idx) ∣ idx * idx := by
  rw [reducedRounds inside accepted, ← roundIff]
  constructor
  · intro same
    by_contra other
    have square : idx * idx < 2 ^ (53 + 9) := by
      calc idx * idx ≤ 2 ^ 31 * idx := Nat.mul_le_mul_right idx (by omega)
        _ < 2 ^ 31 * 2 ^ 31 := Nat.mul_lt_mul_of_pos_left (by omega) (by decide)
    have long : 2 ^ 53 ≤ idx * idx := by
      by_contra short
      exact other (roundSmall (by decide) (by omega))
    have wide : 2 ^ 26 ≤ idx := by
      by_contra narrow
      have bound : idx * idx ≤ 2 ^ 26 * 2 ^ 26 := Nat.mul_le_mul (by omega) (by omega)
      omega
    have unit := unitBound (by decide) square
    have near := @roundNear 53 (idx * idx)
    have divides := (Nat.modEq_iff_dvd.mp same : ((2 * n : ℕ) : ℤ) ∣ (idx * idx : ℕ) - (roundEven 53 (idx * idx) : ℕ))
    have zero := Int.eq_zero_of_abs_lt_dvd divides (by rw [abs_lt]; omega)
    omega
  · intro same
    rw [same]

/- The largest odd square of 53 bits is that of 94906265, and 94906266 is even. -/
theorem lengthIff (accepted : n ≤ 2 ^ 31 - 1) : (∀ idx < n, reduced n idx = idx * idx % (2 * n)) ↔ n ≤ 94906267 := by
  constructor
  · intro all
    by_contra long
    have divides := (reducedIff (by omega) accepted).mp (all 94906267 (by omega))
    have odd : ¬ unitOf 53 (94906267 * 94906267) ∣ 94906267 * 94906267 := by decide
    exact odd divides
  · intro short idx inside
    refine (reducedIff inside accepted).mpr ?_
    rcases (by omega : idx ≤ 94906265 ∨ idx = 94906266) with small | rfl
    · have square : idx * idx < 2 ^ 53 := lt_of_le_of_lt (Nat.mul_le_mul small small) (by decide)
      rw [unitOne (by decide) square]
      exact one_dvd _
    · have even : unitOf 53 (94906266 * 94906266) ∣ 94906266 * 94906266 := by decide
      exact even

end Reduction

section Entries
variable {sign : ℤ} {n m idx : ℕ} {table : List (Option ℤ)}

theorem mirroredEntry (length : table.length = m) (inside : idx < m) (j : ℕ) :
    (mirrored sign n m table idx)[j]? =
      if j < m ∧ (j = idx ∨ (idx ≠ 0 ∧ j = m - idx)) then some (some (phase sign n idx)) else table[j]? := by
  unfold mirrored
  dsimp only
  split_ifs with other written written
  · simp only [List.getElem?_set, List.length_set, length]
    split_ifs <;> first | rfl | omega
  · simp only [List.getElem?_set, List.length_set, length]
    split_ifs <;> first | rfl | omega
  · simp only [List.getElem?_set, length]
    split_ifs <;> first | rfl | omega
  · simp only [List.getElem?_set, length]
    split_ifs <;> first | rfl | omega

theorem mirroredLength : (mirrored sign n m table idx).length = table.length := by
  unfold mirrored
  dsimp only
  split_ifs <;> simp

/- The entries written so far and those that mirror them; with a convolution of 2 n - 1 they do not meet. -/
theorem entriesWritten {k : ℕ} (upTo : k ≤ n) (room : 2 * n - 1 ≤ m) :
    ((List.range k).foldl (mirrored sign n m) (List.replicate m none)).length = m ∧
      ∀ i < k, ((List.range k).foldl (mirrored sign n m) (List.replicate m none))[i]? = some (some (phase sign n i)) ∧
        (i ≠ 0 → ((List.range k).foldl (mirrored sign n m) (List.replicate m none))[m - i]? = some (some (phase sign n i))) := by
  induction k with
  | zero => simp
  | succ k ih =>
      obtain ⟨length, entries⟩ := ih (by omega)
      rw [List.range_succ, List.foldl_append, List.foldl_cons, List.foldl_nil]
      refine ⟨mirroredLength.trans length, fun i inside => ?_⟩
      rw [mirroredEntry length (by omega), mirroredEntry length (by omega)]
      rcases (by omega : i < k ∨ i = k) with before | rfl
      · obtain ⟨entry, mirror⟩ := entries i before
        rw [if_neg (by omega), entry]
        refine ⟨rfl, fun later => ?_⟩
        rw [if_neg (by omega), mirror later]
      · rw [if_pos (by omega)]
        exact ⟨rfl, fun later => if_pos (by omega)⟩

/- The phases of the two tables are opposite at every index. -/
def ConjugatePhases (n : ℕ) : Prop := ∀ (direction : String) (m : ℕ), 2 * n - 1 ≤ m → ∀ idx < n,
  ∃ angle, (buildRawBluesteinChirp n (direction = "inverse"))[idx]? = some angle ∧
    (buildRawBluesteinB direction n m)[idx]? = some (some (-angle)) ∧
    (idx ≠ 0 → (buildRawBluesteinB direction n m)[m - idx]? = some (some (-angle)))

theorem conjugatePhases (n : ℕ) : ConjugatePhases n := by
  intro direction m room idx inside
  obtain ⟨_, entries⟩ := @entriesWritten (if direction = "inverse" then -1 else 1) n m n le_rfl room
  have opposite : phase (if direction = "inverse" then -1 else 1) n idx = -phase (if direction = "inverse" then 1 else -1) n idx := by
    unfold phase
    split_ifs <;> ring
  refine ⟨phase (if direction = "inverse" then 1 else -1) n idx, ?_, ?_⟩
  · simp [buildRawBluesteinChirp, inside]
  · rw [← opposite]
    exact entries idx inside

end Entries

section Phases

def ExactReduction (n : ℕ) : Prop := ∀ idx < n, reduced n idx = idx * idx % (2 * n)

/- Exact for every index up to one length, and beyond it at the indices whose squares have a significand of 53 bits. -/
theorem phaseReduction : ∀ n, 1 ≤ n → n ≤ 2 ^ 31 - 1 →
    ((ExactReduction n ∧ ConjugatePhases n) ↔ n ≤ 94906267) ∧
      ∀ idx < n, (reduced n idx = idx * idx % (2 * n) ↔ unitOf 53 (idx * idx) ∣ idx * idx) := by
  intro n _ accepted
  refine ⟨?_, fun idx inside => reducedIff inside accepted⟩
  rw [and_iff_left (conjugatePhases n)]
  exact lengthIff accepted

theorem phaseReductionFive : ((ExactReduction 5 ∧ ConjugatePhases 5) ↔ 5 ≤ 94906267) ∧
    ∀ idx < 5, (reduced 5 idx = idx * idx % (2 * 5) ↔ unitOf 53 (idx * idx) ∣ idx * idx) :=
  phaseReduction 5 (by decide) (by decide)

/- A prime length: the square of its index 94906267 is odd and has 54 bits. -/
theorem primeLengthRounds : ¬ExactReduction 94906297 := by
  intro all
  have same := all 94906267 (by decide)
  exact absurd same (by decide)

end Phases

end FlagFft.Codegen.BluesteinTables
