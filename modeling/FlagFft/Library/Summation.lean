import Mathlib.Algebra.BigOperators.Intervals
import Mathlib.Algebra.BigOperators.Group.List.Basic
import Mathlib.Tactic.Abel

/-! Sums in the orders that kernels add them: tile by tile with a masked last tile, one by one with the error of each
addition carried to the next, and level by level over pairs. Without rounding they are the same sum. -/
namespace FlagFft.Library.Summation
open Finset (range)

section Tiles
variable {M : Type*} [AddCommMonoid M]

/- acc += sum of the terms of a tile; a lane past the end adds nothing. -/
def tileSum (width count : ℕ) (term : ℕ → M) : M :=
  (List.range ((count + width - 1) / width)).foldl
    (fun acc tile => acc + ∑ lane ∈ range width, if tile * width + lane < count then term (tile * width + lane) else 0) 0

theorem foldlAdd {α : Type*} (items : List α) (f : α → M) (start : M) :
    items.foldl (fun acc item => acc + f item) start = start + (items.map f).sum := by
  induction items generalizing start with
  | nil => simp
  | cons item rest ih => rw [List.foldl_cons, ih, List.map_cons, List.sum_cons, add_assoc]

theorem tilesSum (tiles width : ℕ) (term : ℕ → M) :
    ((List.range tiles).map fun tile => ∑ lane ∈ range width, term (tile * width + lane)).sum =
      ∑ j ∈ range (tiles * width), term j := by
  induction tiles with
  | zero => simp
  | succ tiles ih =>
      rw [List.range_succ, List.map_append, List.sum_append, ih, Nat.succ_mul, Finset.sum_range_add]
      simp

theorem tileSumEq {width : ℕ} (positive : 0 < width) (count : ℕ) (term : ℕ → M) :
    tileSum width count term = ∑ j ∈ range count, term j := by
  have covered : count ≤ (count + width - 1) / width * width := by
    have split := Nat.div_add_mod (count + width - 1) width
    have rest := Nat.mod_lt (count + width - 1) positive
    rw [Nat.mul_comm]
    omega
  rw [tileSum, foldlAdd, zero_add, tilesSum _ width fun j => if j < count then term j else 0]
  rw [← Finset.sum_subset (Finset.range_mono covered)]
  · exact Finset.sum_congr rfl fun j inside => if_pos (Finset.mem_range.mp inside)
  · exact fun j _ outside => if_neg fun inside => outside (Finset.mem_range.mpr inside)

end Tiles

section Compensated
variable {M : Type*} [AddCommGroup M]

structure Compensated (M : Type*) where
  acc : M
  comp : M

def Compensated.add (s : Compensated M) (term : M) : Compensated M :=
  let corrected := term - s.comp
  let next := s.acc + corrected
  ⟨next, (next - s.acc) - corrected⟩

def compensatedSum (count : ℕ) (term : ℕ → M) : M :=
  ((List.range count).foldl (fun s j => Compensated.add s (term j)) ⟨0, 0⟩).acc

theorem compensatedAdd (acc term : M) : (⟨acc, 0⟩ : Compensated M).add term = ⟨acc + term, 0⟩ := by
  simp [Compensated.add]

/- The error that is carried along is always zero. -/
theorem compensatedFold (count : ℕ) (term : ℕ → M) :
    (List.range count).foldl (fun s j => Compensated.add s (term j)) (⟨0, 0⟩ : Compensated M) = ⟨∑ j ∈ range count, term j, 0⟩ := by
  induction count with
  | zero => rfl
  | succ count ih => rw [List.range_succ, List.foldl_append, ih, List.foldl_cons, List.foldl_nil, compensatedAdd,
      Finset.sum_range_succ]

theorem compensatedSumEq (count : ℕ) (term : ℕ → M) : compensatedSum count term = ∑ j ∈ range count, term j := by
  rw [compensatedSum, compensatedFold]

end Compensated

section Tree
variable {M : Type*} [AddCommMonoid M]

/- One level: neighbours are added, and an odd one out is passed on. -/
def pairLevel : List M → List M
  | first :: second :: rest => (first + second) :: pairLevel rest
  | rest => rest

theorem pairLevelSum (terms : List M) : (pairLevel terms).sum = terms.sum := by
  induction terms using pairLevel.induct with
  | case1 first second rest ih => rw [pairLevel, List.sum_cons, ih, List.sum_cons, List.sum_cons, add_assoc]
  | case2 terms short => rw [pairLevel.eq_2 terms short]

theorem pairLevelLength (terms : List M) : (pairLevel terms).length = (terms.length + 1) / 2 := by
  induction terms using pairLevel.induct with
  | case1 first second rest ih =>
      simp only [pairLevel, List.length_cons, ih]
      omega
  | case2 terms short =>
      rw [pairLevel.eq_2 terms short]
      match terms, short with
      | [], _ => simp
      | [_], _ => simp
      | first :: second :: rest, short => exact absurd rfl (short first second rest)

def treeSum (terms : List M) : M :=
  if 1 < terms.length then treeSum (pairLevel terms) else terms.headD 0
termination_by terms.length
decreasing_by
  rw [pairLevelLength]
  omega

theorem treeSumEq (terms : List M) : treeSum terms = terms.sum := by
  induction terms using treeSum.induct with
  | case1 terms several ih => rw [treeSum, if_pos several, ih, pairLevelSum]
  | case2 terms short =>
      rw [treeSum, if_neg short]
      match terms, short with
      | [], _ => rfl
      | [term], _ => simp
      | first :: second :: rest, short => simp at short

end Tree

end FlagFft.Library.Summation
