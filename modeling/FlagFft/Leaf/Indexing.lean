import FlagFft.Library.MixedRadix

/-! Index arithmetic of the generated leaf kernels: the input, output and route loops of
kernels_leaf.py, written as they are emitted, and the closed forms they compute. -/
namespace FlagFft.Leaf
open Library.Indexing Library.MixedRadix

def timeMajorStride (radices : List ℕ) (axis : ℕ) : ℕ := (radices.drop (axis + 1)).prod

/- range(len(factors) - 1, stage, -1) of the source -/
def axesAbove (factors : List ℕ) (stage : ℕ) : List ℕ :=
  (List.range' (stage + 1) (factors.length - (stage + 1))).reverse

def inputBase (factors : List ℕ) (codeletIn : ℕ) : ℕ :=
  ((axesAbove factors 0).foldl (fun (remIn, base) axis =>
    (remIn / radixAt factors axis, base + remIn % radixAt factors axis * timeMajorStride factors axis))
    (codeletIn, 0)).2

def inputIndex (factors : List ℕ) (codeletIn digit : ℕ) : ℕ :=
  inputBase factors codeletIn + digit * timeMajorStride factors 0

def outputBase (factors : List ℕ) (codeletOut : ℕ) : ℕ :=
  ((List.range (factors.length - 1)).foldl (fun p axis => p.step (radixAt factors axis))
    (⟨codeletOut, 0, 1⟩ : Peel)).base

def outputIndex (factors : List ℕ) (codeletOut digit : ℕ) : ℕ :=
  outputBase factors codeletOut + digit * prefixProduct factors (factors.length - 1)

structure Route where
  codeletBase : ℕ
  nextDigit : ℕ
  deriving DecidableEq, Repr

/- The digit of axis stage + 1 is kept apart; every other digit goes into the codelet base. -/
def routeStep (factors : List ℕ) (stage : ℕ) : Peel × ℕ → ℕ → Peel × ℕ :=
  fun (p, nextDigit) axis =>
    if axis = stage + 1 then
      (⟨p.rem / radixAt factors axis, p.base, p.stride⟩, p.rem % radixAt factors axis)
    else (p.step (radixAt factors axis), nextDigit)

def routeBase (factors : List ℕ) (stage codeletRoute : ℕ) : Route :=
  let low := (List.range stage).foldl (fun p axis => p.step (radixAt factors axis)) (⟨codeletRoute, 0, 1⟩ : Peel)
  let high := (axesAbove factors stage).foldl (routeStep factors stage)
    (⟨low.rem, low.base, low.stride * radixAt factors stage⟩, 0)
  ⟨high.1.base, high.2⟩

def routeIndex (factors : List ℕ) (stage codeletRoute nextLanes digit : ℕ) : ℕ :=
  let route := routeBase factors stage codeletRoute
  let nextCodelet := route.codeletBase + digit * prefixProduct factors stage
  nextCodelet % nextLanes +
    nextLanes * (nextCodelet / nextLanes * radixAt factors (stage + 1) + route.nextDigit)

section ClosedForms
variable {factors : List ℕ} {stage codelet : ℕ}

theorem axesRadices (h : stage ≤ factors.length) :
    (List.range stage).map (radixAt factors) = factors.take stage := by
  apply List.ext_getElem
  · simp [h]
  · intro i hi _
    have bound : i < factors.length := by simp at hi; omega
    simp only [List.getElem_map, List.getElem_range, List.getElem_take, radixAtEq bound]

theorem axesAboveRadices :
    (axesAbove factors stage).map (radixAt factors) = (factors.drop (stage + 1)).reverse := by
  rw [axesAbove, List.map_reverse, List.reverse_inj]
  apply List.ext_getElem
  · simp
  · intro i hi _
    have bound : stage + 1 + i < factors.length := by simp at hi; omega
    simp only [List.getElem_map, List.getElem_range', Nat.one_mul, List.getElem_drop, radixAtEq bound]

theorem axesAboveCons (h : stage + 1 < factors.length) :
    axesAbove factors stage = axesAbove factors (stage + 1) ++ [stage + 1] := by
  have count : factors.length - (stage + 1) = factors.length - (stage + 1 + 1) + 1 := by omega
  rw [axesAbove, count, List.range'_succ, List.reverse_cons]
  rfl

theorem axesAboveLast (h : factors.length ≤ stage + 1) : axesAbove factors stage = [] := by
  simp [axesAbove, Nat.sub_eq_zero_of_le h]

theorem memAxesAbove {axis : ℕ} (member : axis ∈ axesAbove factors stage) : stage < axis := by
  simp only [axesAbove, List.mem_reverse, List.mem_range'_1] at member
  omega

theorem peelLow (h : stage ≤ factors.length) (p : Peel) :
    (List.range stage).foldl (fun p axis => p.step (radixAt factors axis)) p =
      ⟨p.rem / prefixProduct factors stage, p.base + p.stride * (p.rem % prefixProduct factors stage),
        p.stride * prefixProduct factors stage⟩ := by
  rw [← List.foldl_map (f := radixAt factors) (g := Peel.step), axesRadices h, peelAll, prefixProduct]

theorem peelHigh (p : Peel) :
    (axesAbove factors stage).foldl (fun p axis => p.step (radixAt factors axis)) p =
      ⟨p.rem / suffixProduct factors (stage + 1),
        p.base + p.stride * (p.rem % suffixProduct factors (stage + 1)),
        p.stride * suffixProduct factors (stage + 1)⟩ := by
  rw [← List.foldl_map (f := radixAt factors) (g := Peel.step), axesAboveRadices, peelAll,
    List.prod_reverse, suffixProduct]

/- The time-major strides are the products of the radices already peeled. -/
theorem inputLoop (count : ℕ) (h : stage + 1 + count = factors.length) (c : ℕ) :
    (axesAbove factors stage).foldl (fun (remIn, base) axis =>
      (remIn / radixAt factors axis, base + remIn % radixAt factors axis * timeMajorStride factors axis))
      (c, 0) = (c / suffixProduct factors (stage + 1), c % suffixProduct factors (stage + 1)) := by
  induction count generalizing stage with
  | zero => rw [axesAboveLast (by omega), suffixProductEnd (by omega)]; simp [Nat.mod_one]
  | succ count ih =>
      have inside : stage + 1 < factors.length := by omega
      rw [axesAboveCons inside, List.foldl_append, ih (by omega), suffixProductSucc inside]
      simp only [List.foldl_cons, List.foldl_nil, Prod.mk.injEq]
      constructor
      · rw [Nat.div_div_eq_div_mul, Nat.mul_comm]
      · rw [Nat.mul_comm (radixAt factors (stage + 1)), Nat.mod_mul, Nat.mul_comm (_ % _)]
        rfl

theorem inputIndexEq (nonempty : 0 < factors.length) (inside : codelet < suffixProduct factors 1) (digit : ℕ) :
    inputIndex factors codelet digit = codelet + digit * suffixProduct factors 1 := by
  rw [inputIndex, inputBase, inputLoop (factors.length - 1) (by omega)]
  simp only [Nat.zero_add, Nat.mod_eq_of_lt inside]
  rfl

theorem outputIndexEq (inside : codelet < prefixProduct factors (factors.length - 1)) (digit : ℕ) :
    outputIndex factors codelet digit = codelet + digit * prefixProduct factors (factors.length - 1) := by
  rw [outputIndex, outputBase, peelLow (Nat.sub_le _ 1)]
  simp only [Nat.zero_add, Nat.one_mul, Nat.mod_eq_of_lt inside]

theorem routeStepsAway {axes : List ℕ} (apart : ∀ axis ∈ axes, axis ≠ stage + 1) (p : Peel) (digit : ℕ) :
    axes.foldl (routeStep factors stage) (p, digit) =
      (axes.foldl (fun p axis => p.step (radixAt factors axis)) p, digit) := by
  induction axes generalizing p with
  | nil => rfl
  | cons axis rest ih =>
      rw [List.foldl_cons, routeStep, if_neg (apart axis List.mem_cons_self)]
      exact ih (fun b hb => apart b (List.mem_cons_of_mem axis hb)) _

theorem routeBaseEq (h : stage + 1 < factors.length)
    (inside : codelet < prefixProduct factors stage * suffixProduct factors (stage + 1)) :
    routeBase factors stage codelet =
      ⟨codelet % prefixProduct factors stage + prefixProduct factors (stage + 1) *
          (codelet / prefixProduct factors stage % suffixProduct factors (stage + 2)),
        codelet / prefixProduct factors stage / suffixProduct factors (stage + 2)⟩ := by
  have time : codelet / prefixProduct factors stage < suffixProduct factors (stage + 1) :=
    Nat.div_lt_of_lt_mul inside
  rw [suffixProductSucc h] at time
  have digit : codelet / prefixProduct factors stage / suffixProduct factors (stage + 2) <
      radixAt factors (stage + 1) := Nat.div_lt_of_lt_mul (by rwa [Nat.mul_comm] at time)
  simp only [routeBase, peelLow (show stage ≤ factors.length by omega), Nat.zero_add, Nat.one_mul]
  rw [axesAboveCons h, List.foldl_append,
    routeStepsAway (fun axis member => (Nat.ne_of_lt (memAxesAbove member)).symm), peelHigh]
  simp only [List.foldl_cons, List.foldl_nil, routeStep, if_true, Nat.mod_eq_of_lt digit,
    prefixProductSucc (show stage < factors.length by omega)]

/- The route sends digit `q` of a codelet to where the next stage reads that element. -/
theorem routeIndexEq (h : stage + 1 < factors.length)
    (inside : codelet < prefixProduct factors stage * suffixProduct factors (stage + 1))
    (nextLanes digit : ℕ) :
    routeIndex factors stage codelet nextLanes digit =
      blocked nextLanes (radixAt factors (stage + 1))
        (codelet % prefixProduct factors stage + prefixProduct factors stage * digit +
          prefixProduct factors (stage + 1) *
            (codelet / prefixProduct factors stage % suffixProduct factors (stage + 2)))
        (codelet / prefixProduct factors stage / suffixProduct factors (stage + 2)) := by
  have shuffle : ∀ a b c : ℕ, a + b + digit * c = a + c * digit + b := by intro a b c; ring
  rw [routeIndex, routeBaseEq h inside, blocked]
  simp only [shuffle]

end ClosedForms
end FlagFft.Leaf
