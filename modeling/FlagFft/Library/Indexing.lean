import Mathlib.Data.Nat.ModEq
import Mathlib.Algebra.BigOperators.Group.List.Basic
import Mathlib.Tactic.Ring

/-! Mixed-radix digits and blocked index layouts on naturals.
Peeling digits off a number, low digit first, leaves the quotient by the product of the radices
and accumulates the remainder, whatever order the radices come in. -/
namespace FlagFft.Library.Indexing

structure Peel where
  rem : ℕ
  base : ℕ
  stride : ℕ
  deriving DecidableEq, Repr

def Peel.step (p : Peel) (radix : ℕ) : Peel :=
  ⟨p.rem / radix, p.base + p.rem % radix * p.stride, p.stride * radix⟩

theorem peelAll (radices : List ℕ) (p : Peel) :
    radices.foldl Peel.step p =
      ⟨p.rem / radices.prod, p.base + p.stride * (p.rem % radices.prod), p.stride * radices.prod⟩ := by
  induction radices generalizing p with
  | nil => simp [Nat.mod_one]
  | cons r rest ih =>
      rw [List.foldl_cons, ih, List.prod_cons, Nat.mod_mul, ← Nat.div_div_eq_div_mul]
      simp only [Peel.step, Peel.mk.injEq, true_and]
      constructor <;> ring

theorem mulAddLt {r b k n : ℕ} (hr : r < b) (hk : k < n) : r * n + k < b * n := by
  calc r * n + k < r * n + n := by omega
    _ = (r + 1) * n := by ring
    _ ≤ b * n := Nat.mul_le_mul_right n hr

theorem mulAddDiv {r k n : ℕ} (hk : k < n) : (r * n + k) / n = r := by
  rw [Nat.mul_comm, Nat.mul_add_div (by omega), Nat.div_eq_of_lt hk, Nat.add_zero]

theorem mulAddMod {r k n : ℕ} (hk : k < n) : (r * n + k) % n = k := by
  rw [Nat.mul_comm, Nat.mul_add_mod, Nat.mod_eq_of_lt hk]

theorem mulAddInj {r r' k k' n : ℕ} (hk : k < n) (hk' : k' < n)
    (same : r * n + k = r' * n + k') : r = r' ∧ k = k' := by
  have quotient := congrArg (· / n) same
  have remainder := congrArg (· % n) same
  simp only [mulAddDiv hk, mulAddDiv hk', mulAddMod hk, mulAddMod hk'] at quotient remainder
  exact ⟨quotient, remainder⟩

/- Three indices in row-major order. -/
def cube (d1 d2 i0 i1 i2 : ℕ) : ℕ := (i0 * d1 + i1) * d2 + i2

section Cube
variable {d0 d1 d2 i0 i1 i2 : ℕ}

theorem cubeMod (h2 : i2 < d2) : cube d1 d2 i0 i1 i2 % d2 = i2 := mulAddMod h2

theorem cubeDiv (h2 : i2 < d2) : cube d1 d2 i0 i1 i2 / d2 = i0 * d1 + i1 := mulAddDiv h2

theorem cubeLt (h0 : i0 < d0) (h1 : i1 < d1) (h2 : i2 < d2) : cube d1 d2 i0 i1 i2 < d0 * d1 * d2 :=
  mulAddLt (mulAddLt h0 h1) h2

/- Every position of a block has its three indices. -/
theorem cubeOf {o : ℕ} (ho : o < d0 * d1 * d2) :
    ∃ i0 < d0, ∃ i1 < d1, ∃ i2 < d2, o = cube d1 d2 i0 i1 i2 := by
  have positive2 : 0 < d2 := Nat.pos_of_mul_pos_left (Nat.zero_lt_of_lt ho)
  have outer : o / d2 < d0 * d1 := Nat.div_lt_of_lt_mul (by rwa [Nat.mul_comm] at ho)
  have positive1 : 0 < d1 := Nat.pos_of_mul_pos_left (Nat.zero_lt_of_lt outer)
  refine ⟨o / d2 / d1, Nat.div_lt_of_lt_mul (by rwa [Nat.mul_comm] at outer), o / d2 % d1, Nat.mod_lt _ positive1,
    o % d2, Nat.mod_lt _ positive2, ?_⟩
  unfold cube
  rw [Nat.mul_comm (o / d2 / d1), Nat.div_add_mod, Nat.mul_comm (o / d2), Nat.div_add_mod]

end Cube

/- Element `digit` of codelet `codelet` when `lanes` codelets of a group lie next to each other
and each lane owns `radix` consecutive rows of the group. -/
def blocked (lanes radix codelet digit : ℕ) : ℕ :=
  codelet % lanes + lanes * (codelet / lanes * radix + digit)

def blockedCodelet (lanes radix index : ℕ) : ℕ := index % lanes + lanes * (index / lanes / radix)

def blockedDigit (lanes radix index : ℕ) : ℕ := index / lanes % radix

section Blocked
variable {lanes radix codelet digit : ℕ}

theorem blockedCodeletOf (codelet : ℕ) (positive : 0 < lanes) (bound : digit < radix) :
    blockedCodelet lanes radix (blocked lanes radix codelet digit) = codelet := by
  have low : codelet % lanes < lanes := Nat.mod_lt _ positive
  rw [blockedCodelet, blocked, Nat.add_mul_mod_self_left, Nat.mod_eq_of_lt low,
    Nat.add_mul_div_left _ _ positive, Nat.div_eq_of_lt low, Nat.zero_add, mulAddDiv bound]
  exact Nat.mod_add_div codelet lanes

theorem blockedDigitOf (codelet : ℕ) (positive : 0 < lanes) (bound : digit < radix) :
    blockedDigit lanes radix (blocked lanes radix codelet digit) = digit := by
  have low : codelet % lanes < lanes := Nat.mod_lt _ positive
  rw [blockedDigit, blocked, Nat.add_mul_div_left _ _ positive, Nat.div_eq_of_lt low,
    Nat.zero_add, mulAddMod bound]

theorem blockedInj {codelet' digit' : ℕ} (positive : 0 < lanes) (bound : digit < radix)
    (bound' : digit' < radix)
    (same : blocked lanes radix codelet digit = blocked lanes radix codelet' digit') :
    codelet = codelet' ∧ digit = digit' :=
  ⟨by rw [← blockedCodeletOf codelet positive bound, same, blockedCodeletOf _ positive bound'],
    by rw [← blockedDigitOf codelet positive bound, same, blockedDigitOf _ positive bound']⟩

theorem blockedLt {groups : ℕ} (positive : 0 < lanes) (inside : codelet < lanes * groups)
    (bound : digit < radix) : blocked lanes radix codelet digit < lanes * groups * radix := by
  have group : codelet / lanes < groups := Nat.div_lt_of_lt_mul inside
  calc blocked lanes radix codelet digit
      < lanes + lanes * (codelet / lanes * radix + digit) :=
        Nat.add_lt_add_right (Nat.mod_lt _ positive) _
    _ = lanes * (codelet / lanes * radix + digit + 1) := by ring
    _ ≤ lanes * (groups * radix) := Nat.mul_le_mul_left lanes (mulAddLt group bound)
    _ = lanes * groups * radix := by ring

end Blocked

/- Lane-major enumeration of the codelets of a stage. -/
theorem laneGroupLt {lanes groups lane group : ℕ} (hl : lane < lanes) (hg : group < groups) :
    lane + lanes * group < lanes * groups := by
  rw [Nat.mul_comm lanes group, Nat.mul_comm lanes groups, Nat.add_comm]
  exact mulAddLt hg hl

theorem laneGroupMod {lanes lane group : ℕ} (hl : lane < lanes) : (lane + lanes * group) % lanes = lane := by
  rw [Nat.add_mul_mod_self_left, Nat.mod_eq_of_lt hl]

theorem laneGroupDiv {lanes lane group : ℕ} (hl : lane < lanes) : (lane + lanes * group) / lanes = group := by
  rw [Nat.add_mul_div_left _ _ (by omega), Nat.div_eq_of_lt hl, Nat.zero_add]

end FlagFft.Library.Indexing
