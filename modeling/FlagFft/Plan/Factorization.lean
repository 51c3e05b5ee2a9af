import Mathlib.Data.List.Prime
import Mathlib.Data.Nat.Prime.Basic
import Mathlib.Tactic.Ring

/-! Lengths as products of the radices that have a codelet. -/
namespace FlagFft.Plan

def kSupportedRadices : List ℕ :=
  [32, 30, 28, 27, 25, 24, 20, 19, 18, 17, 16, 15, 13, 12, 11, 10, 9, 8, 7, 6, 5, 4, 3, 2]

structure Factorization where
  factors : List ℕ
  remainder : ℕ
  deriving DecidableEq, Repr

/- The first radix of the list that divides what is left, until none does. -/
def factorLoop : (fuel : ℕ) → (rem : ℕ) → (factors : List ℕ) → Factorization
  | 0, rem, factors => ⟨factors, rem⟩
  | fuel + 1, rem, factors =>
    if 1 < rem then
      match kSupportedRadices.find? (rem % · = 0) with
      | some radix => factorLoop fuel (rem / radix) (factors ++ [radix])
      | none => ⟨factors, rem⟩
    else ⟨factors, rem⟩

/- Each step halves what is left at least, so n steps are enough. -/
def factorizeSupportedRadices (n : ℕ) : Factorization := factorLoop n n []

/- A length that factors completely. -/
def Supported (n : ℕ) : Prop :=
  (factorizeSupportedRadices n).remainder = 1 ∧ (factorizeSupportedRadices n).factors ≠ []

instance (n : ℕ) : Decidable (Supported n) := inferInstanceAs (Decidable (_ ∧ _))

/- All prime factors have a codelet. -/
def Smooth (n : ℕ) : Prop := ∀ p, p.Prime → p ∣ n → p ∈ kSupportedRadices

section Loop

variable {fuel rem : ℕ} {factors : List ℕ}

theorem radixFound {radix : ℕ} (found : kSupportedRadices.find? (rem % · = 0) = some radix) : 2 ≤ radix ∧ radix ∣ rem := by
  have member := List.mem_of_find?_eq_some found
  have divides := List.find?_some found
  simp only [decide_eq_true_eq] at divides
  have small : ∀ r ∈ kSupportedRadices, 2 ≤ r := by decide
  exact ⟨small radix member, Nat.dvd_of_mod_eq_zero divides⟩

/- What the loop returns has the product it started with. -/
theorem factorProduct : (factorLoop fuel rem factors).factors.prod * (factorLoop fuel rem factors).remainder =
    factors.prod * rem := by
  induction fuel generalizing rem factors with
  | zero => rfl
  | succ fuel ih =>
      unfold factorLoop
      split
      · split
        next radix found =>
          obtain ⟨_, divides⟩ := radixFound found
          rw [ih, List.prod_append, List.prod_singleton, Nat.mul_assoc, Nat.mul_div_cancel' divides]
        next => rfl
      · rfl

/- A smooth length is used up. -/
theorem factorRemainder (positive : 0 < rem) (enough : rem ≤ fuel) (smooth : Smooth rem) :
    (factorLoop fuel rem factors).remainder = 1 := by
  induction fuel generalizing rem factors with
  | zero => omega
  | succ fuel ih =>
      unfold factorLoop
      split
      next more =>
        split
        next radix found =>
          obtain ⟨two, divides⟩ := radixFound found
          have less : rem / radix < rem := Nat.div_lt_self positive two
          refine ih (Nat.div_pos (Nat.le_of_dvd positive divides) (by omega)) (by omega) fun p prime inside => ?_
          exact smooth p prime (inside.trans (Nat.div_dvd_of_dvd divides))
        next missing =>
          obtain ⟨p, prime, divides⟩ := Nat.exists_prime_and_dvd (by omega : rem ≠ 1)
          have here := List.find?_eq_none.mp missing p (smooth p prime divides)
          simp [Nat.mod_eq_zero_of_dvd divides] at here
      next few =>
        change rem = 1
        omega

theorem factorMembers (all : ∀ factor ∈ factors, factor ∈ kSupportedRadices) :
    ∀ factor ∈ (factorLoop fuel rem factors).factors, factor ∈ kSupportedRadices := by
  induction fuel generalizing rem factors with
  | zero => exact all
  | succ fuel ih =>
      unfold factorLoop
      split
      · split
        next radix found =>
          refine ih fun factor member => ?_
          rcases List.mem_append.mp member with before | last
          · exact all factor before
          · exact List.mem_singleton.mp last ▸ List.mem_of_find?_eq_some found
        next => exact all
      · exact all

theorem factorPositive (positive : 0 < rem) : 0 < (factorLoop fuel rem factors).remainder := by
  induction fuel generalizing rem factors with
  | zero => exact positive
  | succ fuel ih =>
      unfold factorLoop
      split
      · split
        next radix found =>
          obtain ⟨two, divides⟩ := radixFound found
          exact ih (Nat.div_pos (Nat.le_of_dvd positive divides) (by omega))
        next => exact positive
      · exact positive

end Loop

section Lengths

variable {n : ℕ}

/- Where the length is used up, its factors multiply to it. -/
theorem supportedProduct (supported : Supported n) : (factorizeSupportedRadices n).factors.prod = n := by
  have product := @factorProduct n n []
  rw [factorizeSupportedRadices]
  rw [show (factorLoop n n []).remainder = 1 from supported.1] at product
  simpa using product

theorem smoothSupported (several : 2 ≤ n) (smooth : Smooth n) : Supported n := by
  have remainder := @factorRemainder n n [] (by omega) le_rfl smooth
  refine ⟨remainder, fun none_ => ?_⟩
  have product := @factorProduct n n []
  rw [factorizeSupportedRadices] at none_
  rw [none_, remainder] at product
  simp at product
  omega

/- The prime factors of the radices are radices themselves. -/
theorem supportedSmooth (supported : Supported n) : Smooth n := by
  intro p prime divides
  rw [← supportedProduct supported] at divides
  obtain ⟨radix, member, inside⟩ := (Prime.dvd_prod_iff prime.prime).mp divides
  have radix_ : radix ∈ kSupportedRadices := factorMembers (by simp) radix member
  have small : p ≤ 32 := by
    have bounds : ∀ r ∈ kSupportedRadices, 0 < r ∧ r ≤ 32 := by decide
    exact (Nat.le_of_dvd (bounds radix radix_).1 inside).trans (bounds radix radix_).2
  have primes : ∀ p < 33, p.Prime → ∀ r ∈ kSupportedRadices, p ∣ r → p ∈ kSupportedRadices := by decide
  exact primes p (by omega) prime radix radix_ inside

theorem supportedDivisor {d : ℕ} (supported : Supported n) (several : 2 ≤ d) (divides : d ∣ n) : Supported d :=
  smoothSupported several fun p prime inside => supportedSmooth supported p prime (inside.trans divides)

theorem smoothMul {a b : ℕ} (first : Smooth a) (second : Smooth b) : Smooth (a * b) := fun p prime divides =>
  (prime.dvd_mul.mp divides).elim (first p prime) (second p prime)

theorem smoothPow {radix : ℕ} (member : radix ∈ kSupportedRadices) (prime : radix.Prime) (e : ℕ) : Smooth (radix ^ e) :=
  fun _ hp divides => (Nat.prime_dvd_prime_iff_eq hp prime).mp (hp.dvd_of_dvd_pow divides) ▸ member

end Lengths

end FlagFft.Plan
