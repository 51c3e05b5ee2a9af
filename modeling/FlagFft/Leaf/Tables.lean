import FlagFft.Leaf.Indexing
import FlagFft.Library.Stores

/-! The stage twiddle tables of codegen/tables.cpp. A table entry decodes its codelet into
prefix frequencies and future times; the decoder throws when digits are left over. -/
namespace FlagFft.Leaf
open Library.Indexing Library.Stores Library.MixedRadix

def prevFrequencies (radices : List ℕ) (stage codelet : ℕ) : List ℕ × ℕ :=
  (List.range stage).foldl (fun (prevFreq, rem) axis =>
    (prevFreq ++ [rem % radixAt radices axis], rem / radixAt radices axis)) ([], codelet)

def futureTimes (radices : List ℕ) (stage rem : ℕ) : List ℕ × ℕ :=
  (axesAbove radices stage).foldl (fun (futureTime, rem) axis =>
    (futureTime.set axis (rem % radixAt radices axis), rem / radixAt radices axis))
    (List.replicate radices.length 0, rem)

def decodeStageCodelet (codelet : ℕ) (radices : List ℕ) (stage : ℕ) : Except String (List ℕ × List ℕ) :=
  let (prevFreq, rem) := prevFrequencies radices stage codelet
  let (futureTime, rem) := futureTimes radices stage rem
  if rem ≠ 0 then .error "stage codelet decode overflow" else .ok (prevFreq, futureTime)

def mixedRadixValue (digits radices : List ℕ) (limit : ℕ) : ℕ :=
  ((List.range limit).foldl (fun (value, stride) axis =>
    (value + digits.getD axis 0 * stride, stride * radixAt radices axis)) (0, 1)).1

section Decode
variable {radices : List ℕ} {stage codelet : ℕ}

theorem prevFrequenciesEq (h : stage ≤ radices.length) : prevFrequencies radices stage codelet =
    ((List.range stage).map (fun axis => codelet / prefixProduct radices axis % radixAt radices axis),
      codelet / prefixProduct radices stage) := by
  rw [prevFrequencies]
  induction stage with
  | zero => simp [prefixProductZero]
  | succ stage ih =>
      rw [List.range_succ, List.foldl_append, ih (by omega), List.map_append,
        prefixProductSucc (by omega), ← Nat.div_div_eq_div_mul]
      rfl

theorem futureTimesRem (rem : ℕ) :
    (futureTimes radices stage rem).2 = rem / suffixProduct radices (stage + 1) := by
  have project : ∀ axes : List ℕ, ∀ futureTime rem,
      (axes.foldl (fun (futureTime, rem) axis =>
        (List.set futureTime axis (rem % radixAt radices axis), rem / radixAt radices axis))
        (futureTime, rem)).2 = rem / (axes.map (radixAt radices)).prod := by
    intro axes
    induction axes with
    | nil => intro _ rem; simp
    | cons axis rest ih =>
        intro _ _
        rw [List.foldl_cons, ih, List.map_cons, List.prod_cons, Nat.div_div_eq_div_mul]
  rw [futureTimes, project, axesAboveRadices, List.prod_reverse, suffixProduct]

theorem mixedRadixPrefix (h : stage ≤ radices.length) (digits : List ℕ)
    (read : ∀ axis < stage, digits.getD axis 0 = codelet / prefixProduct radices axis % radixAt radices axis) :
    mixedRadixValue digits radices stage = codelet % prefixProduct radices stage := by
  suffices loop : (List.range stage).foldl (fun (value, stride) axis =>
      (value + digits.getD axis 0 * stride, stride * radixAt radices axis)) (0, 1) =
      (codelet % prefixProduct radices stage, prefixProduct radices stage) from congrArg Prod.fst loop
  induction stage with
  | zero => simp [prefixProductZero, Nat.mod_one]
  | succ stage ih =>
      rw [List.range_succ, List.foldl_append, ih (by omega) (fun axis ha => read axis (by omega)),
        prefixProductSucc (by omega), Nat.mod_mul]
      simp only [List.foldl_cons, List.foldl_nil, read stage (Nat.lt_succ_self stage), Nat.mul_comm]

/- Every codelet of a stage decodes; its prefix is its index modulo the product of the earlier radices. -/
theorem decodeOk (h : stage < radices.length)
    (inside : codelet < prefixProduct radices stage * suffixProduct radices (stage + 1)) :
    ∃ prevFreq futureTime, decodeStageCodelet codelet radices stage = .ok (prevFreq, futureTime) ∧
      mixedRadixValue prevFreq radices prevFreq.length = codelet % prefixProduct radices stage := by
  have leftover : codelet / prefixProduct radices stage / suffixProduct radices (stage + 1) = 0 :=
    Nat.div_eq_of_lt (Nat.div_lt_of_lt_mul inside)
  refine ⟨(List.range stage).map (fun axis => codelet / prefixProduct radices axis % radixAt radices axis),
    (futureTimes radices stage (codelet / prefixProduct radices stage)).1, ?_, ?_⟩
  · simp only [decodeStageCodelet, prevFrequenciesEq h.le, futureTimesRem, leftover, ne_eq, not_true,
      if_false]
  · rw [List.length_map, List.length_range]
    refine mixedRadixPrefix h.le _ fun axis ha => ?_
    rw [List.getD_eq_getElem _ _ (by simpa using ha)]
    simp

end Decode

variable {R : Type*} [CommRing R]

/- `w` stands for exp(sign 2 pi i / n); an angle over `denom` is a power of its n / denom-th power. -/
def stageTwiddleEntry (w : R) (radices : List ℕ) (stage lanes : ℕ) :
    ℕ × ℕ → Except String (Store ℕ R) := fun (lane, elem) =>
  let n := radices.prod
  let radix := radixAt radices stage
  let denom := prefixProduct radices (stage + 1)
  let group := elem / radix
  let digit := elem % radix
  let codelet := lane + lanes * group
  match decodeStageCodelet codelet radices stage with
  | .error message => .error message
  | .ok (prevFreq, _) =>
      let prefixFreq := mixedRadixValue prevFreq radices prevFreq.length
      .ok ⟨lane + lanes * elem, w ^ (n / denom * (prefixFreq * digit))⟩

def buildStageTwiddles (w : R) (radices : List ℕ) (stage lanes : ℕ) : Except String (ℕ → R) :=
  (List.range lanes ×ˢ List.range (radices.prod / lanes)).foldlM
    (fun table entry => do return commit table (← stageTwiddleEntry w radices stage lanes entry)) (fun _ => 0)

section Twiddles
variable {radices : List ℕ} {stage lanes : ℕ}

/- The lanes of a stage share its codelets evenly. -/
def LanesFit (radices : List ℕ) (stage lanes : ℕ) : Prop := lanes ∣ radices.prod / radixAt radices stage

instance : Decidable (LanesFit radices stage lanes) := inferInstanceAs (Decidable (_ ∣ _))

def groupCount (radices : List ℕ) (stage lanes : ℕ) : ℕ := radices.prod / (lanes * radixAt radices stage)

theorem lanesMulGroups (positive : 0 < radices.prod) (h : stage < radices.length)
    (fit : LanesFit radices stage lanes) :
    0 < lanes ∧ lanes * groupCount radices stage lanes =
      prefixProduct radices stage * suffixProduct radices (stage + 1) := by
  obtain ⟨groups, share⟩ := fit
  have count := codeletCount positive h
  obtain ⟨p, f, q⟩ := productsPositive positive h
  have nonzero : 0 < lanes * groups := by rw [← share, count]; exact Nat.mul_pos p q
  refine ⟨Nat.pos_of_mul_pos_right nonzero, ?_⟩
  rw [groupCount, Nat.mul_comm lanes (radixAt _ _), ← Nat.div_div_eq_div_mul, share,
    Nat.mul_div_cancel_left _ (Nat.pos_of_mul_pos_right nonzero), ← share, count]

theorem elemsPerLane (positive : 0 < radices.prod) (h : stage < radices.length)
    (fit : LanesFit radices stage lanes) :
    radices.prod / lanes = groupCount radices stage lanes * radixAt radices stage := by
  obtain ⟨lanesPositive, share⟩ := lanesMulGroups positive h fit
  rw [factorsProd h, Nat.mul_right_comm, ← share, Nat.mul_assoc, Nat.mul_div_cancel_left _ lanesPositive]

theorem stageTwiddleEntryOk (w : R) (positive : 0 < radices.prod) (h : stage < radices.length)
    (fit : LanesFit radices stage lanes) {lane elem : ℕ} (hl : lane < lanes)
    (he : elem < radices.prod / lanes) :
    stageTwiddleEntry w radices stage lanes (lane, elem) =
      .ok ⟨lane + lanes * elem, w ^ (suffixProduct radices (stage + 1) *
        ((lane + lanes * (elem / radixAt radices stage)) % prefixProduct radices stage *
          (elem % radixAt radices stage)))⟩ := by
  obtain ⟨p, f, q⟩ := productsPositive positive h
  rw [elemsPerLane positive h fit] at he
  have inside := laneGroupLt hl (Nat.div_lt_of_lt_mul (by rwa [Nat.mul_comm] at he))
  rw [(lanesMulGroups positive h fit).2] at inside
  obtain ⟨prevFreq, futureTime, decoded, value⟩ := decodeOk h inside
  have denom : radices.prod / prefixProduct radices (stage + 1) = suffixProduct radices (stage + 1) := by
    rw [← prefixMulSuffix radices (stage + 1)]
    exact Nat.mul_div_cancel_left _ (by rw [prefixProductSucc h]; exact Nat.mul_pos p f)
  simp only [stageTwiddleEntry, decoded, denom, value]

/- The table holds the twiddle of codelet `c`, digit `t` where the kernel looks it up. -/
theorem buildStageTwiddlesOk (w : R) (positive : 0 < radices.prod) (h : stage < radices.length)
    (fit : LanesFit radices stage lanes) :
    ∃ table, buildStageTwiddles w radices stage lanes = .ok table ∧
      ∀ c t, c < prefixProduct radices stage * suffixProduct radices (stage + 1) →
        t < radixAt radices stage → table (blocked lanes (radixAt radices stage) c t) =
          w ^ (suffixProduct radices (stage + 1) * (c % prefixProduct radices stage * t)) := by
  obtain ⟨lanesPositive, share⟩ := lanesMulGroups positive h fit
  refine ⟨_, commitAllOk (fun p => ⟨p.1 + lanes * p.2, w ^ (suffixProduct radices (stage + 1) *
      ((p.1 + lanes * (p.2 / radixAt radices stage)) % prefixProduct radices stage *
        (p.2 % radixAt radices stage)))⟩) ?_ _, ?_⟩
  · rintro ⟨lane, elem⟩ member
    obtain ⟨hl, he⟩ := List.pair_mem_product.mp member
    exact stageTwiddleEntryOk w positive h fit (List.mem_range.mp hl) (List.mem_range.mp he)
  · intro c t hc ht
    have group : c / lanes < groupCount radices stage lanes := Nat.div_lt_of_lt_mul (by rwa [share])
    apply commitAllWritten
    · refine ⟨_, List.mem_map.mpr ⟨(c % lanes, c / lanes * radixAt radices stage + t), ?_, rfl⟩, rfl⟩
      rw [elemsPerLane positive h fit]
      exact List.pair_mem_product.mpr ⟨List.mem_range.mpr (Nat.mod_lt _ lanesPositive),
        List.mem_range.mpr (mulAddLt group ht)⟩
    · intro s member same
      obtain ⟨⟨lane, elem⟩, pair, rfl⟩ := List.mem_map.mp member
      have inRange : lane < lanes := List.mem_range.mp (List.pair_mem_product.mp pair).1
      simp only [blocked] at same
      have hl : lane = c % lanes := by
        have := congrArg (· % lanes) same
        simpa only [laneGroupMod inRange, laneGroupMod (Nat.mod_lt c lanesPositive)] using this
      have he : elem = c / lanes * radixAt radices stage + t := by
        have := congrArg (· / lanes) same
        simpa only [laneGroupDiv inRange, laneGroupDiv (Nat.mod_lt c lanesPositive)] using this
      rw [hl, he, mulAddDiv ht, mulAddMod ht, Nat.mod_add_div]

end Twiddles
end FlagFft.Leaf
