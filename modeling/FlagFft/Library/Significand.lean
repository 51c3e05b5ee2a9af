import Mathlib.Data.Nat.Log
import Mathlib.Tactic.Ring

/-! Natural numbers rounded to a significand of so many bits: to the nearest, and of two to the even one. -/
namespace FlagFft.Library.Significand

/- The worth of the last bit of the significand. -/
def unitOf (precision x : ℕ) : ℕ := 2 ^ (Nat.log2 x + 1 - precision)

def roundEven (precision x : ℕ) : ℕ :=
  let unit := unitOf precision x
  let below := x / unit
  let rest := x % unit
  (if 2 * rest < unit ∨ (2 * rest = unit ∧ below % 2 = 0) then below else below + 1) * unit

variable {precision x : ℕ}

theorem unitPositive : 0 < unitOf precision x := Nat.two_pow_pos _

theorem unitBound {more : ℕ} (some_ : 0 < precision) (small : x < 2 ^ (precision + more)) : unitOf precision x ≤ 2 ^ more := by
  refine Nat.pow_le_pow_right (by decide) ?_
  rcases Nat.eq_zero_or_pos x with rfl | positive
  · have none_ : Nat.log2 0 = 0 := rfl
    omega
  · have bits : Nat.log2 x < precision + more := (Nat.log2_lt positive.ne').mpr small
    omega

theorem unitOne (some_ : 0 < precision) (small : x < 2 ^ precision) : unitOf precision x = 1 :=
  le_antisymm (@unitBound precision x 0 some_ small) unitPositive

/- Nothing is lost just where the number is a multiple of the unit. -/
theorem roundIff : roundEven precision x = x ↔ unitOf precision x ∣ x := by
  have positive := @unitPositive precision x
  constructor
  · intro same
    have divides : unitOf precision x ∣ roundEven precision x := Dvd.intro_left _ rfl
    rwa [same] at divides
  · intro divides
    have rest := Nat.mod_eq_zero_of_dvd divides
    simp only [roundEven, rest, Nat.mul_zero, positive, true_or, if_true]
    exact Nat.div_mul_cancel divides

theorem roundSmall (some_ : 0 < precision) (small : x < 2 ^ precision) : roundEven precision x = x :=
  roundIff.mpr (by rw [unitOne some_ small]; exact one_dvd x)

/- The error is half a unit at most. -/
theorem roundNear : 2 * x ≤ 2 * roundEven precision x + unitOf precision x ∧
    2 * roundEven precision x ≤ 2 * x + unitOf precision x := by
  have positive := @unitPositive precision x
  have whole := Nat.div_add_mod' x (unitOf precision x)
  have less := Nat.mod_lt x positive
  simp only [roundEven]
  split_ifs with down
  · omega
  · rw [Nat.add_mul, Nat.one_mul]
    omega

end FlagFft.Library.Significand
