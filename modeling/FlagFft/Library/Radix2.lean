import FlagFft.Library.Dft
import Mathlib.Data.Nat.Bitwise

/-! The radix-two transform of bit-reversed values, a butterfly stage at a time: after stage s an entry is a transform
of length 2^s over every 2^(bits - s)-th value. -/
namespace FlagFft.Library.Radix2
open Library.Dft

section Bits

/- The bits of an index from the lowest, each shifted in from the right. -/
def reverse : ℕ → ℕ → ℕ
  | 0, _ => 0
  | bits + 1, i => 2 * reverse bits i + i / 2 ^ bits % 2

/- The lowest bit comes out on top. -/
theorem reverseCons (bits i : ℕ) : reverse (bits + 1) i = i % 2 * 2 ^ bits + reverse bits (i / 2) := by
  induction bits with
  | zero => simp [reverse]
  | succ bits ih =>
      rw [reverse, ih, reverse, Nat.div_div_eq_div_mul, ← pow_succ', pow_succ']
      ring

def partner (i stage : ℕ) : ℕ := i ^^^ 2 ^ stage

theorem partnerBelow (i stage : ℕ) : partner i stage % 2 ^ stage = i % 2 ^ stage := by
  rw [partner, Nat.xor_mod_two_pow, Nat.mod_self, Nat.xor_zero]

theorem partnerAbove (i stage : ℕ) : partner i stage / 2 ^ stage = i / 2 ^ stage ^^^ 1 := by
  rw [partner, Nat.xor_div_two_pow, Nat.div_self (Nat.two_pow_pos stage)]

theorem xorOneHalf (i : ℕ) : (i ^^^ 1) / 2 = i / 2 := by
  have split := Nat.xor_div_two_pow (a := i) (b := 1) (n := 1)
  simpa using split

theorem xorOneLow (i : ℕ) : (i ^^^ 1) % 2 = 1 - i % 2 := by
  have split := Nat.xor_mod_two_pow (a := i) (b := 1) (n := 1)
  rcases Nat.mod_two_eq_zero_or_one i with low | low <;> simpa [low] using split

theorem partnerLess {bits i stage : ℕ} (inside : i < 2 ^ bits) (below : stage < bits) : partner i stage < 2 ^ bits :=
  Nat.xor_lt_two_pow inside (Nat.pow_lt_pow_right one_lt_two below)

end Bits

section Stages
variable {R : Type*} [CommRing R] (bits : ℕ) (w : R)

def butterfly (stage : ℕ) (x : ℕ → R) (i : ℕ) : R :=
  let upper := i / 2 ^ stage % 2 = 1
  let a := if upper then x (partner i stage) else x i
  let b := if upper then x i else x (partner i stage)
  let t := w ^ (i % 2 ^ stage * 2 ^ (bits - (stage + 1))) * b
  if upper then a - t else a + t

def stages (count : ℕ) (x : ℕ → R) : ℕ → R := (List.range count).foldl (fun x stage => butterfly bits w stage x) x

variable {bits : ℕ} {w : R} (y : ℕ → R)

theorem butterflyCongr {stage i : ℕ} {x x' : ℕ → R} (same : ∀ j < 2 ^ bits, x j = x' j) (below : stage < bits)
    (inside : i < 2 ^ bits) : butterfly bits w stage x i = butterfly bits w stage x' i := by
  simp only [butterfly, same i inside, same _ (partnerLess inside below)]

theorem stagesSucc (count : ℕ) (x : ℕ → R) : stages bits w (count + 1) x = butterfly bits w count (stages bits w count x) := by
  rw [stages, List.range_succ, List.foldl_append, List.foldl_cons, List.foldl_nil]
  rfl

theorem stagesCongr {count i : ℕ} {x x' : ℕ → R} (same : ∀ j < 2 ^ bits, x j = x' j) (few : count ≤ bits)
    (inside : i < 2 ^ bits) : stages bits w count x i = stages bits w count x' i := by
  induction count generalizing i with
  | zero => exact same i inside
  | succ count ih =>
      rw [stagesSucc, stagesSucc]
      exact butterflyCongr (fun j less => ih (Nat.le_of_succ_le few) less) few inside

/- An entry after some stages: a short transform of every 2^(bits - count)-th value. -/
def partialDft (bits : ℕ) (w : R) (count i : ℕ) : R :=
  dft (2 ^ count) (w ^ 2 ^ (bits - count))
    (fun j => y (reverse (bits - count) (i / 2 ^ count) + j * 2 ^ (bits - count))) (i % 2 ^ count)

/- The two entries of a butterfly are the even and the odd half of the next transform. -/
theorem partialHalf {count i bit : ℕ} (inside : count < bits) (low : i / 2 ^ count % 2 = bit) :
    partialDft y bits w count i = dft (2 ^ count) ((w ^ 2 ^ (bits - (count + 1))) ^ 2)
      (fun u => y (reverse (bits - (count + 1)) (i / 2 ^ (count + 1)) + (u * 2 + bit) * 2 ^ (bits - (count + 1))))
      (i % 2 ^ count) := by
  obtain ⟨rest, rfl⟩ : ∃ rest, bits = rest + count + 1 := ⟨bits - (count + 1), by omega⟩
  have here : rest + count + 1 - count = rest + 1 := by omega
  have next : rest + count + 1 - (count + 1) = rest := by omega
  rw [partialDft, here, next, ← pow_mul, ← pow_succ]
  refine dftCongr fun u _ => congrArg y ?_
  rw [reverseCons, low, Nat.div_div_eq_div_mul, ← pow_succ]
  ring

theorem butterflyDft {count i : ℕ} (inside : count < bits) (half : w ^ 2 ^ (bits - 1) = -1) :
    butterfly bits w count (partialDft y bits w count) i = partialDft y bits w (count + 1) i := by
  obtain ⟨rest, same⟩ : ∃ rest, bits = rest + count + 1 := ⟨bits - (count + 1), by omega⟩
  have next : bits - (count + 1) = rest := by omega
  have middle : (w ^ 2 ^ rest) ^ 2 ^ count = -1 := by
    rw [← pow_mul, ← pow_add, show rest + count = bits - 1 by omega, half]
  have root : (w ^ 2 ^ rest) ^ (2 ^ count * 2) = 1 := by
    rw [pow_mul, middle, neg_one_sq]
  have whole : partialDft y bits w (count + 1) i = dft (2 ^ count * 2) (w ^ 2 ^ rest)
      (fun j => y (reverse rest (i / 2 ^ (count + 1)) + j * 2 ^ rest)) (i % 2 ^ count + 2 ^ count * (i / 2 ^ count % 2)) := by
    rw [partialDft, next, ← pow_succ, pow_succ 2 count, Nat.mod_mul]
  have turned : partner i count / 2 ^ (count + 1) = i / 2 ^ (count + 1) := by
    rw [pow_succ, ← Nat.div_div_eq_div_mul, partnerAbove, xorOneHalf, Nat.div_div_eq_div_mul]
  have other : partner i count / 2 ^ count % 2 = 1 - i / 2 ^ count % 2 := by rw [partnerAbove, xorOneLow]
  have twiddle : w ^ (i % 2 ^ count * 2 ^ rest) = (w ^ 2 ^ rest) ^ (i % 2 ^ count) := by rw [Nat.mul_comm, pow_mul]
  rw [whole, ← dftSplit root, Finset.sum_range_succ, Finset.sum_range_one]
  unfold butterfly
  rcases Nat.mod_two_eq_zero_or_one (i / 2 ^ count) with low | low
  · rw [low] at other
    simp only [low, zero_ne_one, if_false]
    rw [partialHalf y inside low, partialHalf y inside other, partnerBelow, turned, next, twiddle]
    simp [mul_comm]
  · rw [low] at other
    simp only [low, if_true]
    rw [partialHalf y inside low, partialHalf y inside other, partnerBelow, turned, next, twiddle]
    simp [middle, mul_comm, sub_eq_add_neg]

theorem stagesPartial (count : ℕ) (inside : count ≤ bits) (half : w ^ 2 ^ (bits - 1) = -1) :
    stages bits w count (fun i => y (reverse bits i)) = partialDft y bits w count := by
  induction count with
  | zero =>
      funext i
      simp [stages, partialDft]
  | succ count ih =>
      funext i
      rw [stagesSucc, ih (Nat.le_of_succ_le inside), butterflyDft y inside half]

/- All stages over bit-reversed values are the transform. -/
theorem stagesDft {i : ℕ} (inside : i < 2 ^ bits) (half : w ^ 2 ^ (bits - 1) = -1) :
    stages bits w bits (fun i => y (reverse bits i)) i = dft (2 ^ bits) w y i := by
  rw [stagesPartial y bits le_rfl half, partialDft, Nat.sub_self, Nat.mod_eq_of_lt inside]
  simp [reverse]

end Stages

end FlagFft.Library.Radix2
