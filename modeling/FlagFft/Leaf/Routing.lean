import FlagFft.Library.MixedRadix

/-! Where the elements of a leaf stage go: every element of the next stage comes from exactly one
element of this one, with its prefix extended by the new digit and its future time shortened. -/
namespace FlagFft.Leaf
open Library.Indexing Library.MixedRadix

section Routing
variable {factors : List ℕ} {stage : ℕ}

/- Where element `q` of codelet `c` goes: its codelet and digit at the next stage. -/
def nextCodelet (factors : List ℕ) (stage c q : ℕ) : ℕ :=
  c % prefixProduct factors stage + prefixProduct factors stage * q +
    prefixProduct factors (stage + 1) *
      (c / prefixProduct factors stage % suffixProduct factors (stage + 2))

def nextDigit (factors : List ℕ) (stage c : ℕ) : ℕ :=
  c / prefixProduct factors stage / suffixProduct factors (stage + 2)

theorem nextPrefix (positive : 0 < factors.prod) (h : stage < factors.length) {c q : ℕ}
    (hq : q < radixAt factors stage) :
    nextCodelet factors stage c q % prefixProduct factors (stage + 1) =
        c % prefixProduct factors stage + prefixProduct factors stage * q ∧
      nextCodelet factors stage c q / prefixProduct factors (stage + 1) =
        c / prefixProduct factors stage % suffixProduct factors (stage + 2) := by
  obtain ⟨p, _, _⟩ := productsPositive positive h
  have bound : c % prefixProduct factors stage + prefixProduct factors stage * q <
      prefixProduct factors (stage + 1) := by
    rw [prefixProductSucc h]
    exact laneGroupLt (Nat.mod_lt c p) hq
  exact ⟨laneGroupMod bound, laneGroupDiv bound⟩

theorem nextInside (positive : 0 < factors.prod) (h : stage + 1 < factors.length) {c q : ℕ}
    (hc : c < prefixProduct factors stage * suffixProduct factors (stage + 1))
    (hq : q < radixAt factors stage) :
    nextCodelet factors stage c q <
        prefixProduct factors (stage + 1) * suffixProduct factors (stage + 2) ∧
      nextDigit factors stage c < radixAt factors (stage + 1) ∧
      nextDigit factors stage c * suffixProduct factors (stage + 2) +
        nextCodelet factors stage c q / prefixProduct factors (stage + 1) =
          c / prefixProduct factors stage := by
  have here : stage < factors.length := by omega
  obtain ⟨p, _, _⟩ := productsPositive positive here
  obtain ⟨_, _, r⟩ := productsPositive positive h
  have low : c % prefixProduct factors stage + prefixProduct factors stage * q <
      prefixProduct factors (stage + 1) := by
    rw [prefixProductSucc here]
    exact laneGroupLt (Nat.mod_lt c p) hq
  refine ⟨laneGroupLt low (Nat.mod_lt _ r), ?_, ?_⟩
  · rw [suffixProductSucc h, ← Nat.mul_assoc] at hc
    rw [nextDigit, Nat.div_div_eq_div_mul]
    exact Nat.div_lt_of_lt_mul (by rwa [Nat.mul_right_comm] at hc)
  · rw [(nextPrefix positive here hq).2, nextDigit, Nat.mul_comm]
    exact Nat.div_add_mod _ _

/- Every element of the next stage comes from one element of this one. -/
theorem nextSource (positive : 0 < factors.prod) (h : stage + 1 < factors.length) {c' t' : ℕ}
    (hc : c' < prefixProduct factors (stage + 1) * suffixProduct factors (stage + 2))
    (ht : t' < radixAt factors (stage + 1)) :
    ∃ c q, c < prefixProduct factors stage * suffixProduct factors (stage + 1) ∧
      q < radixAt factors stage ∧ nextCodelet factors stage c q = c' ∧ nextDigit factors stage c = t' := by
  have here : stage < factors.length := by omega
  obtain ⟨p, _, _⟩ := productsPositive positive here
  obtain ⟨p', _, _⟩ := productsPositive positive h
  have time : c' / prefixProduct factors (stage + 1) < suffixProduct factors (stage + 2) :=
    Nat.div_lt_of_lt_mul hc
  have frequency : c' % prefixProduct factors (stage + 1) <
      prefixProduct factors stage * radixAt factors stage := by
    rw [← prefixProductSucc here]; exact Nat.mod_lt _ p'
  have low : c' % prefixProduct factors (stage + 1) % prefixProduct factors stage <
      prefixProduct factors stage := Nat.mod_lt _ p
  refine ⟨c' % prefixProduct factors (stage + 1) % prefixProduct factors stage +
      prefixProduct factors stage *
        (t' * suffixProduct factors (stage + 2) + c' / prefixProduct factors (stage + 1)),
    c' % prefixProduct factors (stage + 1) / prefixProduct factors stage, ?_, ?_, ?_, ?_⟩
  · refine laneGroupLt low ?_
    rw [suffixProductSucc h]
    exact mulAddLt ht time
  · exact Nat.div_lt_of_lt_mul frequency
  · rw [nextCodelet, laneGroupMod low, laneGroupDiv low, mulAddMod time, Nat.mod_add_div,
      Nat.mod_add_div]
  · rw [nextDigit, laneGroupDiv low, mulAddDiv time]

end Routing

end FlagFft.Leaf
