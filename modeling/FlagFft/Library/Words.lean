import Mathlib.Algebra.BigOperators.Group.List.Basic
import Mathlib.Tactic.Linarith

/-! Signed machine words read as integers: which operations on them are exact. -/
namespace FlagFft.Library.Words

theorem balancedExact {value : ℤ} (lower : -2 ^ 63 ≤ value) (upper : value < 2 ^ 63) : value.bmod (2 ^ 64) = value :=
  Int.bmod_eq_of_le_mul_two (by omega) (by omega)

theorem balancedBounds (value : ℤ) : -2 ^ 63 ≤ value.bmod (2 ^ 64) ∧ value.bmod (2 ^ 64) < 2 ^ 63 := by
  have lower := @Int.le_bmod value (2 ^ 64) (by decide)
  have upper := @Int.bmod_lt value (2 ^ 64) (by decide)
  omega

theorem mulExact {a b : Int64} (lower : -2 ^ 63 ≤ a.toInt * b.toInt) (upper : a.toInt * b.toInt < 2 ^ 63) :
    (a * b).toInt = a.toInt * b.toInt := by
  rw [Int64.toInt_mul]
  exact balancedExact lower upper

theorem addExact {a b : Int64} (lower : -2 ^ 63 ≤ a.toInt + b.toInt) (upper : a.toInt + b.toInt < 2 ^ 63) :
    (a + b).toInt = a.toInt + b.toInt := by
  rw [Int64.toInt_add]
  exact balancedExact lower upper

theorem halfExact {a : Int64} (positive : 0 ≤ a.toInt) : (a / 2 + 1).toInt = a.toInt / 2 + 1 := by
  have bound := a.toInt_lt
  have quotient : (a / 2).toInt = a.toInt / 2 := by
    rw [Int64.toInt_div_of_ne_right _ _ (by decide)]
    exact Int.tdiv_eq_ediv_of_nonneg positive
  have one : (1 : Int64).toInt = 1 := rfl
  rw [addExact] <;> omega

def wordProduct (values : List Int64) : Int64 := values.foldl (fun result value => result * value) 1

theorem productWrapsFrom (values : List Int64) (start : Int64) :
    (values.foldl (fun result value => result * value) start).toInt =
      (start.toInt * (values.map Int64.toInt).prod).bmod (2 ^ 64) := by
  induction values generalizing start with
  | nil => simp
  | cons value rest ih =>
    rw [List.foldl_cons, ih, Int64.toInt_mul, Int.bmod_mul_bmod, List.map_cons, List.prod_cons, mul_assoc]

theorem productWraps (values : List Int64) : (wordProduct values).toInt = ((values.map Int64.toInt).prod).bmod (2 ^ 64) := by
  unfold wordProduct
  rw [productWrapsFrom, Int64.toInt_one, one_mul]

/- A wrapped word is the integer itself just when the integer is a word. -/
theorem wrapsExactly {value : ℤ} (positive : 0 ≤ value) : value.bmod (2 ^ 64) = value ↔ value < 2 ^ 63 := by
  constructor
  · intro exact_
    rw [← exact_]
    exact (balancedBounds value).2
  · exact balancedExact (by omega)

/- The same for 32-bit words: a literal, a narrowed value and the operations on literals. -/
theorem literalExact {value : ℕ} (small : value < 2 ^ 31) : (Int32.ofNat value).toInt = value :=
  Int32.toInt_ofNat_of_lt small

theorem wideLiteralExact {value : ℕ} (small : value < 2 ^ 63) : (Int64.ofNat value).toInt = value :=
  Int64.toInt_ofNat_of_lt small

theorem narrowLiteral (value : ℕ) : (Int64.ofNat value).toInt32 = Int32.ofNat value := by
  apply Int32.toInt.inj
  simp

theorem widenLiteral {value : ℕ} (small : value < 2 ^ 31) : (Int32.ofNat value).toInt64 = Int64.ofNat value := by
  apply Int64.toInt.inj
  rw [Int32.toInt_toInt64, literalExact small, wideLiteralExact (by omega)]

def minimum (a b : Int32) : Int32 := if a ≤ b then a else b

theorem minimumBelow {a b : ℕ} (bounded : a ≤ b) (small : b < 2 ^ 31) :
    minimum (Int32.ofNat a) (Int32.ofNat b) = Int32.ofNat a :=
  if_pos ((Int32.ofNat_le_iff_le (by omega) small).mpr bounded)

end FlagFft.Library.Words
