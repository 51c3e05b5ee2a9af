import FlagFft.Library.Dft

/-! Butterflies that one thread runs on its own registers: composite radices made of smaller codelets and a twiddle
between them. A register file is a function of the register's number. -/
namespace FlagFft.Leaf
open Library.Indexing Library.Dft

variable {R : Type*} [CommRing R]

/- outer_radix, inner_radix; the generator refuses every other radix but 32 -/
def mixedSplit : ℕ → Option (ℕ × ℕ)
  | 18 => some (3, 6)
  | 20 => some (5, 4)
  | 24 => some (3, 8)
  | 25 => some (5, 5)
  | 27 => some (3, 9)
  | 28 => some (7, 4)
  | 30 => some (3, 10)
  | _ => none

/- Register outer_digit + outer_radix * inner_digit: inner codelets, twiddle, outer codelets, then natural order. -/
def localMixedCodelet (outerRadix innerRadix : ℕ) (z : R) (r : ℕ → R) (output : ℕ) : R :=
  let inner register := dft innerRadix (z ^ outerRadix) (fun digit => r (register % outerRadix + outerRadix * digit))
    (register / outerRadix)
  let twiddled register := if register % outerRadix = 0 then inner register
    else inner register * z ^ (register % outerRadix * (register / outerRadix))
  let outer register := dft outerRadix (z ^ innerRadix) (fun digit => twiddled (digit + outerRadix * (register / outerRadix)))
    (register % outerRadix)
  outer (output / innerRadix + outerRadix * (output % innerRadix))

/- Two codelets of 16 registers, and one butterfly across them. -/
def localRadix32Codelet (z : R) (r : ℕ → R) (output : ℕ) : R :=
  let half register := dft 16 (z ^ (1 + 1)) (fun digit => r (register / 16 * 16 + digit)) (register % 16)
  if output < 16 then half output + half (output + 16) * z ^ output
  else half (output - 16) - half output * z ^ (output - 16)

/- The digit of the input that a register of the radix-32 codelet holds. -/
def radix32Digit (register : ℕ) : ℕ := (1 + 1) * (register % 16) + register / 16

/- _emit_local_mixed_codelet_call -/
def registerCodelet (radix : ℕ) (z : R) (r : ℕ → R) : ℕ → R :=
  if radix = 32 then localRadix32Codelet z r
  else match mixedSplit radix with
    | some (outerRadix, innerRadix) => localMixedCodelet outerRadix innerRadix z r
    | none => r

theorem localMixedCodeletDft {outerRadix innerRadix : ℕ} {z : R} (root : z ^ (innerRadix * outerRadix) = 1) (r : ℕ → R)
    {output : ℕ} (inside : output < innerRadix * outerRadix) :
    localMixedCodelet outerRadix innerRadix z r output = dft (innerRadix * outerRadix) z r output := by
  have low : output / innerRadix < outerRadix := Nat.div_lt_of_lt_mul inside
  have split := dftSplit root r (output % innerRadix) (output / innerRadix)
  rw [Nat.mod_add_div] at split
  rw [← split, localMixedCodelet]
  simp only [laneGroupMod low, laneGroupDiv low]
  rw [dft]
  refine Finset.sum_congr rfl fun digit member => ?_
  have here : digit < outerRadix := Finset.mem_range.mp member
  simp only [laneGroupMod here, laneGroupDiv here]
  have order : (fun u => r (u * outerRadix + digit)) = fun u => r (digit + outerRadix * u) := by
    funext u
    rw [Nat.add_comm, Nat.mul_comm]
  rw [order]
  by_cases first : digit = 0
  · simp [first]
  · rw [if_neg first, Nat.mul_comm digit (output % innerRadix)]

theorem localRadix32CodeletDft {z : R} (half : z ^ 16 = -1) {r x : ℕ → R} (held : ∀ register < 32, r register = x (radix32Digit register))
    {output : ℕ} (inside : output < 32) : localRadix32Codelet z r output = dft 32 z x output := by
  have root : z ^ (16 * 2) = 1 := by rw [pow_mul, half, neg_one_sq]
  have part {parity : ℕ} (bit : parity < 2) (k : ℕ) : dft 16 (z ^ (1 + 1)) (fun digit => r (parity * 16 + digit)) k =
      dft 16 (z ^ 2) (fun u => x (u * 2 + parity)) k := by
    refine dftCongr fun digit low => ?_
    rw [held _ (by omega), radix32Digit]
    congr 1
    omega
  rw [localRadix32Codelet]
  by_cases low : output < 16
  · have split := dftSplit root x output 0
    rw [Finset.sum_range_succ, Finset.sum_range_one, Nat.mul_zero, Nat.add_zero] at split
    simp only [Nat.mul_zero, pow_zero, mul_one] at split
    rw [if_pos low, ← split]
    simp only [Nat.div_eq_of_lt low, Nat.mod_eq_of_lt low, Nat.add_mod_right, Nat.add_div_right output (show 0 < 16 by decide)]
    rw [part Nat.two_pos, part Nat.one_lt_two]
  · have back : output - 16 + 16 * 1 = output := by omega
    have split := dftSplit root x (output - 16) 1
    rw [Finset.sum_range_succ, Finset.sum_range_one, back] at split
    simp only [Nat.mul_zero, pow_zero, mul_one, Nat.mul_one, half, pow_one] at split
    have under : output - 16 < 16 := by omega
    have quotient : output / 16 = 1 := by omega
    have remainder : output % 16 = output - 16 := by omega
    rw [if_neg low, ← split]
    simp only [Nat.div_eq_of_lt under, Nat.mod_eq_of_lt under, quotient, remainder]
    rw [part Nat.two_pos, part Nat.one_lt_two, mul_neg_one, sub_eq_add_neg]

end FlagFft.Leaf
