import Mathlib.Data.List.Perm.Basic
import Mathlib.FieldTheory.Finite.Basic
import Mathlib.RingTheory.IntegralDomain

/-! Generators of the multiplicative group of a prime field, in the numbers below the prime: the test by the prime factors
of the order, and the table of the powers. -/
namespace FlagFft.Library.Generators

def IsGenerator (p g : ℕ) : Prop := ∀ x, 0 < x → x < p → ∃ i, g ^ i % p = x

def powerTable (p g : ℕ) : List ℕ := (List.range (p - 1)).map fun i => g ^ i % p

variable {p g : ℕ} [prime : Fact p.Prime]

theorem castPow {i x : ℕ} (small : x < p) : g ^ i % p = x ↔ (g : ZMod p) ^ i = x := by
  rw [← Nat.cast_pow, ZMod.natCast_eq_natCast_iff', Nat.mod_eq_of_lt small]

section Order
variable (positive : 0 < g) (less : g < p)
include positive less

theorem castNonzero : (g : ZMod p) ≠ 0 := by
  intro zero
  have small := Nat.le_of_dvd positive ((ZMod.natCast_eq_zero_iff g p).mp zero)
  omega

theorem powerPositive (i : ℕ) : 0 < g ^ i % p := by
  refine Nat.pos_of_ne_zero fun zero => ?_
  have same := (castPow prime.out.pos).mp zero
  rw [Nat.cast_zero] at same
  exact pow_ne_zero i (castNonzero positive less) same

theorem powerWhole : (g : ZMod p) ^ (p - 1) = 1 := ZMod.pow_card_sub_one_eq_one (castNonzero positive less)

/- The powers of an element of the full order are the numbers below the prime. -/
theorem powerTablePerm (order : orderOf (g : ZMod p) = p - 1) : (powerTable p g).Perm (List.range' 1 (p - 1)) := by
  have distinct : (powerTable p g).Nodup := by
    refine List.Nodup.map_on ?_ List.nodup_range
    intro i first j second same
    rw [castPow (Nat.mod_lt _ prime.out.pos), ZMod.natCast_mod, Nat.cast_pow] at same
    refine pow_injOn_Iio_orderOf ?_ ?_ same
    · rw [Set.mem_Iio, order]
      exact List.mem_range.mp first
    · rw [Set.mem_Iio, order]
      exact List.mem_range.mp second
  have among : powerTable p g ⊆ List.range' 1 (p - 1) := by
    intro x member
    obtain ⟨i, _, rfl⟩ := List.mem_map.mp member
    have some_ := powerPositive positive less i
    have small := Nat.mod_lt (g ^ i) prime.out.pos
    exact List.mem_range'_1.mpr ⟨some_, by omega⟩
  exact (distinct.subperm among).perm_of_length_le (by simp [powerTable])

theorem generatorIffOrder : IsGenerator p g ↔ orderOf (g : ZMod p) = p - 1 := by
  constructor
  · intro generates
    have divides := ZMod.orderOf_dvd_card_sub_one (castNonzero positive less)
    have several := prime.out.two_le
    refine le_antisymm (Nat.le_of_dvd (by omega) divides) ?_
    -- a period shorter than the order does not reach every number
    have covered : Finset.Icc 1 (p - 1) ⊆ (Finset.range (orderOf (g : ZMod p))).image fun i => g ^ i % p := by
      intro x member
      obtain ⟨lower, upper⟩ := Finset.mem_Icc.mp member
      obtain ⟨i, same⟩ := generates x lower (by omega)
      refine Finset.mem_image.mpr ⟨i % orderOf (g : ZMod p), Finset.mem_range.mpr (Nat.mod_lt _ ?_), ?_⟩
      · exact Nat.pos_of_dvd_of_pos divides (by omega)
      · rw [castPow (by omega), pow_mod_orderOf]
        exact (castPow (by omega)).mp same
    have counted := (Finset.card_le_card covered).trans Finset.card_image_le
    rwa [Nat.card_Icc, Finset.card_range, Nat.add_sub_cancel] at counted
  · intro order x lower upper
    have member := (powerTablePerm positive less order).mem_iff.mpr (List.mem_range'_1.mpr ⟨lower, by omega⟩)
    obtain ⟨i, _, same⟩ := List.mem_map.mp member
    exact ⟨i, same⟩

/- No power to the order over a prime factor of it is one. -/
theorem generatorIff : IsGenerator p g ↔ ∀ q, q.Prime → q ∣ p - 1 → g ^ ((p - 1) / q) % p ≠ 1 := by
  have several := prime.out.two_le
  have one : ∀ i, g ^ i % p = 1 ↔ (g : ZMod p) ^ i = 1 := fun i => by
    rw [castPow (by omega : 1 < p), Nat.cast_one]
  rw [generatorIffOrder positive less]
  constructor
  · intro order q factor divides same
    have proper : (p - 1) / q < p - 1 := Nat.div_lt_self (by omega) factor.one_lt
    have some_ : (p - 1) / q ≠ 0 := (Nat.div_pos (Nat.le_of_dvd (by omega) divides) factor.pos).ne'
    exact pow_ne_one_of_lt_orderOf some_ (by rw [order]; exact proper) ((one _).mp same)
  · intro test
    exact orderOf_eq_of_pow_and_pow_div_prime (by omega) (powerWhole positive less) fun q factor divides same =>
      test q factor divides ((one _).mpr same)

/- Entries at opposite places are inverse to each other. -/
theorem powerTableInverse {i : ℕ} (inside : i < p - 1) :
    (powerTable p g).getD ((p - 1 - i) % (p - 1)) 0 * (powerTable p g).getD i 0 % p = 1 := by
  have several := prime.out.two_le
  have entry : ∀ j < p - 1, (powerTable p g).getD j 0 = g ^ j % p := by
    intro j small
    simp [powerTable, List.getD, small]
  rw [entry _ (Nat.mod_lt _ (by omega)), entry _ inside, ← Nat.mul_mod, ← pow_add, castPow (by omega : 1 < p), Nat.cast_one]
  rcases Nat.eq_zero_or_pos i with rfl | later
  · rw [Nat.sub_zero, Nat.mod_self, pow_zero]
  · rw [Nat.mod_eq_of_lt (by omega), Nat.sub_add_cancel (by omega)]
    exact powerWhole positive less

end Order

theorem generatorExists : ∃ g, 0 < g ∧ g < p ∧ IsGenerator p g := by
  obtain ⟨unit, order⟩ := IsCyclic.exists_ofOrder_eq_natCard (α := (ZMod p)ˣ)
  rw [Nat.card_eq_fintype_card, ZMod.card_units] at order
  have same : ((unit : ZMod p).val : ZMod p) = unit := ZMod.natCast_zmod_val _
  have positive : 0 < (unit : ZMod p).val := by
    refine Nat.pos_of_ne_zero fun zero => unit.ne_zero ?_
    rw [← same, zero, Nat.cast_zero]
  have less := ZMod.val_lt (unit : ZMod p)
  refine ⟨_, positive, less, (generatorIffOrder positive less).mpr ?_⟩
  rw [same, orderOf_units, order]

end FlagFft.Library.Generators
