import FlagFft.Library.Indexing
import FlagFft.Library.Dft
import Mathlib.Data.List.GetD

/-! Transforms of a length given by an ordered factor list: products of the factors before and
after a stage, and the partial transform that a stage extends by one factor.
Factors are read by axis; an axis past the end reads as radix one. -/
namespace FlagFft.Library.MixedRadix
open Library.Indexing Library.Dft

def radixAt (factors : List ℕ) (axis : ℕ) : ℕ := factors.getD axis 1

def prefixProduct (factors : List ℕ) (stage : ℕ) : ℕ := (factors.take stage).prod

def suffixProduct (factors : List ℕ) (stage : ℕ) : ℕ := (factors.drop stage).prod

section Products
variable {factors : List ℕ} {stage : ℕ}

theorem radixAtEq (h : stage < factors.length) : radixAt factors stage = factors[stage] :=
  List.getD_eq_getElem _ _ h

theorem prefixProductZero : prefixProduct factors 0 = 1 := rfl

theorem prefixProductAll : prefixProduct factors factors.length = factors.prod := by
  rw [prefixProduct, List.take_length]

theorem prefixProductSucc (h : stage < factors.length) :
    prefixProduct factors (stage + 1) = prefixProduct factors stage * radixAt factors stage := by
  rw [radixAtEq h]; exact List.prod_take_succ factors stage h

theorem suffixProductSucc (h : stage < factors.length) :
    suffixProduct factors stage = radixAt factors stage * suffixProduct factors (stage + 1) := by
  rw [suffixProduct, List.drop_eq_getElem_cons h, List.prod_cons, radixAtEq h, suffixProduct]

theorem suffixProductEnd (h : factors.length ≤ stage) : suffixProduct factors stage = 1 := by
  rw [suffixProduct, List.drop_eq_nil_of_le h, List.prod_nil]

theorem prefixMulSuffix (factors : List ℕ) (stage : ℕ) :
    prefixProduct factors stage * suffixProduct factors stage = factors.prod :=
  List.prod_take_mul_prod_drop factors stage

theorem factorsProd (h : stage < factors.length) :
    factors.prod = prefixProduct factors stage * radixAt factors stage * suffixProduct factors (stage + 1) := by
  rw [← prefixMulSuffix factors stage, suffixProductSucc h, Nat.mul_assoc]

theorem productsPositive (positive : 0 < factors.prod) (h : stage < factors.length) :
    0 < prefixProduct factors stage ∧ 0 < radixAt factors stage ∧ 0 < suffixProduct factors (stage + 1) := by
  rw [factorsProd h] at positive
  exact ⟨Nat.pos_of_mul_pos_right (Nat.pos_of_mul_pos_right positive),
    Nat.pos_of_mul_pos_left (Nat.pos_of_mul_pos_right positive), Nat.pos_of_mul_pos_left positive⟩

/- n / f codelets run at a stage: one for every prefix frequency and future time. -/
theorem codeletCount (positive : 0 < factors.prod) (h : stage < factors.length) :
    factors.prod / radixAt factors stage = prefixProduct factors stage * suffixProduct factors (stage + 1) := by
  rw [factorsProd h, Nat.mul_right_comm]
  exact Nat.mul_div_cancel _ (productsPositive positive h).2.1

end Products

section Partial
variable {R : Type*} [CommRing R] {factors : List ℕ} {stage : ℕ}

/- The transform over the first `stage` factors: frequency `P`, future time `T`. -/
def partialDft (factors : List ℕ) (w : R) (stage : ℕ) (x : ℕ → R) (P T : ℕ) : R :=
  dft (prefixProduct factors stage) (w ^ suffixProduct factors stage)
    (fun u => x (u * suffixProduct factors stage + T)) P

theorem partialDftStart {w : R} {x : ℕ → R} {P T : ℕ} : partialDft factors w 0 x P T = x T := by
  simp [partialDft, prefixProductZero]

theorem partialDftEnd {w : R} {x : ℕ → R} {k : ℕ} :
    partialDft factors w factors.length x k 0 = dft factors.prod w x k := by
  simp [partialDft, prefixProductAll, suffixProductEnd le_rfl]

theorem partialDftStep {w : R} (root : w ^ factors.prod = 1) (h : stage < factors.length)
    (x : ℕ → R) (P T q : ℕ) :
    ∑ t ∈ Finset.range (radixAt factors stage),
        partialDft factors w stage x P (t * suffixProduct factors (stage + 1) + T) *
          w ^ (suffixProduct factors (stage + 1) * (P * t)) *
          (w ^ (prefixProduct factors stage * suffixProduct factors (stage + 1))) ^ (t * q) =
      partialDft factors w (stage + 1) x (P + prefixProduct factors stage * q) T := by
  have split := dftSplit (F := prefixProduct factors stage) (f := radixAt factors stage)
    (z := w ^ suffixProduct factors (stage + 1))
    (by rw [← pow_mul, Nat.mul_comm, ← factorsProd h, root])
    (fun u => x (u * suffixProduct factors (stage + 1) + T)) P q
  rw [partialDft, prefixProductSucc h, ← split]
  refine Finset.sum_congr rfl fun t _ => ?_
  have sample : ∀ u, u * suffixProduct factors stage + (t * suffixProduct factors (stage + 1) + T) =
      (u * radixAt factors stage + t) * suffixProduct factors (stage + 1) + T := by
    intro u; rw [suffixProductSucc h]; ring
  simp only [partialDft, sample]
  simp only [suffixProductSucc h, pow_mul, Nat.mul_comm (radixAt factors stage),
    Nat.mul_comm (prefixProduct factors stage)]

end Partial
end FlagFft.Library.MixedRadix
