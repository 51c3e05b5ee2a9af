import FlagFft.ThreeDim.FusedCube

/-! Any interleaving of the fused 16-cube launch: it stores the transforms of all cubes just when no program stores
into a cube that is still read, that is when the input and the output do not meet. -/
namespace FlagFft.ThreeDim.FusedCube
open Library Library.Interleave Library.Dft Library.Indexing Library.Distinct
open FlagFft.Stockham (directionRoot stageTwiddle)

namespace Form
variable (form : Form) (input output : ℕ)

/- Words of an input cube. -/
def cubeWords : Form → ℕ
  | .complex _ => 8192
  | .real => 4096

/- Stored elements of an output row. -/
def width : Form → ℕ
  | .complex _ => 16
  | .real => 9

noncomputable def twiddle : ℕ → ℂ := stageTwiddle form.direction 16

noncomputable def program : Form → ℕ → ℕ → ℕ → Program ℕ ℝ
  | .complex direction, input, output => complexProgram (twiddle (.complex direction)) input output direction
  | .real, input, output => realProgram (twiddle .real) input output

/- CompiledRaw3DFusedCubeNode::execute launches 16 programs a cube. -/
def programs (batch : ℕ) : List ℕ := List.range (batch * 16)

/- An element of an input cube. -/
def element : Form → ℕ → ℕ → (ℕ → ℝ) → ℕ → ℂ
  | .complex _, input, cube, m, e => ⟨m (input + (cube * 4096 + e) * 2), m (input + (cube * 4096 + e) * 2 + 1)⟩
  | .real, input, cube, m, e => ⟨m (input + cube * 4096 + e), 0⟩

noncomputable def spectrum (cube : ℕ) (m : ℕ → ℝ) : ℕ → ℂ :=
  dft3 16 16 16 (directionRoot form.direction 16) (directionRoot form.direction 16) (directionRoot form.direction 16)
    (form.element input cube m)

/- Where an output row begins; program 16 cube + k0 stores plane k0. -/
def place (pid row col : ℕ) : ℕ := output + ((pid * 16 + row) * form.width + col) * 2

def stored (pid row col : ℕ) (final : ℕ → ℝ) : ℂ :=
  ⟨final (form.place output pid row col), final (form.place output pid row col + 1)⟩

/- Every complete interleaving leaves the transforms of the cubes the launch began with. -/
def Exact (batch : ℕ) : Prop := ∀ m : ℕ → ℝ, Always (form.program input output) (programs batch) m fun final =>
  ∀ cube < batch, ∀ k0 < 16, ∀ k1 < 16, ∀ k2 < form.width,
    form.stored output (cube * 16 + k0) k1 k2 final = form.spectrum input cube m ((k0 * 16 + k1) * 16 + k2)

/- The words read and the words written do not meet. -/
def Apart (batch : ℕ) : Prop :=
  batch = 0 ∨ input + batch * form.cubeWords ≤ output ∨ output + batch * 16 * (16 * form.width * 2) ≤ input

instance (batch : ℕ) : Decidable (form.Apart input output batch) := inferInstanceAs (Decidable (_ ∨ _ ∨ _))

noncomputable def registers : Form → ℕ → ℕ → (ℕ → ℝ) → ℕ → ℂ
  | .complex direction, input, pid => complexRegisters (twiddle (.complex direction)) input direction pid
  | .real, input, pid => realRegisters (twiddle .real) input pid

section Values
variable {form input output}

theorem outerDft {direction : Direction} {outputPlane : ℕ} {plane : ℕ → ℂ} :
    outer (stageTwiddle direction 16) outputPlane plane = dft 16 (directionRoot direction 16) plane outputPlane := by
  have sum : ∀ n ≤ 16, (List.range n).foldl (fun x inputPlane =>
      x + stageTwiddle direction 16 (inputPlane * outputPlane % 16) * plane inputPlane) 0 =
      ∑ j ∈ Finset.range n, plane j * directionRoot direction 16 ^ (j * outputPlane) := by
    intro n few
    induction n with
    | zero => simp
    | succ n ih =>
        have inside : n * outputPlane % 16 < 16 := Nat.mod_lt _ (by norm_num)
        rw [List.range_succ, List.foldl_append, ih (Nat.le_of_succ_le few), Finset.sum_range_succ, List.foldl_cons,
          List.foldl_nil, stageTwiddle, if_pos inside, powMod (@FlagFft.Stockham.directionRootUnit direction 16 (by norm_num)).root, mul_comm]
  exact sum 16 le_rfl

/- The outer transform of an element, as every program computes it. -/
noncomputable def outerPlane (form : Form) (input pid : ℕ) (seen : ℕ → ℝ) (e : ℕ) : ℂ :=
  dft 16 (directionRoot form.direction 16) (fun plane => form.element input (pid / 16) seen (plane * 256 + e)) (pid % 16)

noncomputable def twist : Form → ℕ → ℕ → ℂ → ℂ
  | .complex direction => quarterTwist (twiddle (.complex direction)) direction
  | .real => tableTwist (twiddle .real)

theorem registersOuter (pid : ℕ) (seen : ℕ → ℝ) : form.registers input pid seen =
    planeFft form.twist fun idx => form.outerPlane input pid seen (reversed idx) := by
  cases form with
  | complex direction =>
      refine congrArg (planeFft _) (funext fun idx => ?_)
      rw [twiddle, outerDft]
      refine dftCongr fun plane _ => ?_
      have place : (pid / 16 * 16 + plane) * 256 + reversed idx = pid / 16 * 4096 + (plane * 256 + reversed idx) := by omega
      simp only [complexSource, element, place]
  | real =>
      refine congrArg (planeFft _) (funext fun idx => ?_)
      rw [twiddle, outerDft]
      refine dftCongr fun plane _ => ?_
      simp only [realSource, element, Nat.add_assoc]

/- A register ends with its element of the transform of the whole cube. -/
theorem registersSpectrum {pid row col : ℕ} (rowInside : row < 16) (colInside : col < 16) (seen : ℕ → ℝ) :
    form.registers input pid seen (row * 16 + col) = form.spectrum input (pid / 16) seen ((pid % 16 * 16 + row) * 16 + col) := by
  have twisted : ∀ stage < 4, ∀ d b, form.twist stage d b = tableTwist (stageTwiddle form.direction 16) stage d b := by
    cases form with
    | complex direction => exact fun stage small d b => quarterTwistTable small d b
    | real => exact fun _ _ _ _ => rfl
  have split := @dft3Split ℂ _ 16 16 16 (directionRoot form.direction 16) (directionRoot form.direction 16)
    (directionRoot form.direction 16) (form.element input (pid / 16) seen) (pid % 16) row col rowInside colInside
  rw [registersOuter, @planeFftDft form.direction form.twist (form.outerPlane input pid seen) row col twisted rowInside colInside,
    spectrum]
  refine Eq.trans ?_ split
  have inner : ∀ r, dft 16 (directionRoot form.direction 16) (fun c => form.outerPlane input pid seen (r * 16 + c)) col =
      dft 16 (directionRoot form.direction 16) (fun plane => dft 16 (directionRoot form.direction 16)
        (fun c => form.element input (pid / 16) seen (cube 16 16 plane r c)) col) (pid % 16) := by
    intro r
    rw [← dftSwap]
    refine dftCongr fun c _ => dftCongr fun plane _ => ?_
    rw [cube, show (plane * 16 + r) * 16 + c = plane * 256 + (r * 16 + c) by omega]
  simp only [inner]
  exact dftSwap 16 16 _ _ (fun plane r => dft 16 _ (fun c => form.element input (pid / 16) seen (cube 16 16 plane r c)) col) _ _

section Shapes

/- Both kernels store rows of a width, a real and an imaginary word each. -/
theorem storesRows (pid : ℕ) : (form.program input output pid).stores = (List.range 256).flatMap fun idx =>
    if idx % 16 < form.width then
      [(form.place output pid (idx / 16) (idx % 16), fun seen => (form.registers input pid seen idx).re),
        (form.place output pid (idx / 16) (idx % 16) + 1, fun seen => (form.registers input pid seen idx).im)]
    else [] := by
  cases form with
  | complex direction =>
      refine List.flatMap_congr fun idx _ => ?_
      have inside : idx % 16 < (complex direction).width := Nat.mod_lt _ (by norm_num)
      have place : output + ((pid / 16 * 16 + pid % 16) * 256 + idx) * 2 =
          (complex direction).place output pid (idx / 16) (idx % 16) := by
        simp only [Form.place, width]
        omega
      rw [if_pos inside, ← place]
      rfl
  | real =>
      refine List.flatMap_congr fun idx _ => ?_
      have masked : idx % 16 < real.width ↔ idx % 16 ≤ 8 := Nat.lt_succ_iff
      have place : output + (pid / 16 * 16 * 16 * 9 + pid % 16 * 16 * 9 + idx / 16 * 9 + idx % 16) * 2 =
          real.place output pid (idx / 16) (idx % 16) := by
        simp only [Form.place, width]
        omega
      simp only [masked, ← place]
      rfl

theorem entryRow {pid row col : ℕ} (rowInside : row < 16) (colInside : col < form.width) :
    (form.place output pid row col, fun seen => (form.registers input pid seen (row * 16 + col)).re) ∈
        (form.program input output pid).stores ∧
      (form.place output pid row col + 1, fun seen => (form.registers input pid seen (row * 16 + col)).im) ∈
        (form.program input output pid).stores := by
  have narrow : col < 16 := by
    cases form with
    | complex _ => exact colInside
    | real => exact lt_trans colInside (by decide)
  have index : row * 16 + col ∈ List.range 256 := List.mem_range.mpr (by omega)
  have rowOf : (row * 16 + col) / 16 = row := by omega
  have colOf : (row * 16 + col) % 16 = col := by omega
  rw [storesRows]
  refine ⟨List.mem_flatMap.mpr ⟨_, index, ?_⟩, List.mem_flatMap.mpr ⟨_, index, ?_⟩⟩ <;>
    rw [if_pos (by rwa [colOf]), rowOf, colOf] <;> simp

theorem entryOf {pid : ℕ} {entry : ℕ × ((ℕ → ℝ) → ℝ)} (listed : entry ∈ (form.program input output pid).stores) :
    ∃ row < 16, ∃ col < 16, col < form.width ∧
      (entry = (form.place output pid row col, fun seen => (form.registers input pid seen (row * 16 + col)).re) ∨
        entry = (form.place output pid row col + 1, fun seen => (form.registers input pid seen (row * 16 + col)).im)) := by
  rw [storesRows] at listed
  obtain ⟨idx, inside, listed⟩ := List.mem_flatMap.mp listed
  have less := List.mem_range.mp inside
  split_ifs at listed with kept
  · refine ⟨idx / 16, by omega, idx % 16, Nat.mod_lt _ (by norm_num), kept, ?_⟩
    rw [show idx / 16 * 16 + idx % 16 = idx by omega]
    simpa using listed
  · simp at listed

/- A program stores one run of words, the next program the next run. -/
theorem targetRun {pid a : ℕ} : a ∈ (form.program input output pid).targets ↔
    output + pid * (16 * form.width * 2) ≤ a ∧ a < output + (pid + 1) * (16 * form.width * 2) := by
  constructor
  · intro listed
    obtain ⟨entry, inside, rfl⟩ := List.mem_map.mp listed
    obtain ⟨row, rowInside, col, _, colInside, rfl | rfl⟩ := entryOf inside <;>
      cases form <;> simp only [place, width] at colInside ⊢ <;> omega
  · rintro ⟨low, high⟩
    have rowInside : (a - (output + pid * (16 * form.width * 2))) / 2 / form.width < 16 := by
      cases form <;> simp only [width] at low high ⊢ <;> omega
    have colInside : (a - (output + pid * (16 * form.width * 2))) / 2 % form.width < form.width := by
      refine Nat.mod_lt _ ?_
      cases form <;> norm_num [width]
    obtain ⟨first, second⟩ := @entryRow form input output pid _ _ rowInside colInside
    rcases Nat.mod_two_eq_zero_or_one (a - (output + pid * (16 * form.width * 2))) with even | odd
    · refine List.mem_map.mpr ⟨_, first, ?_⟩
      cases form <;> simp only [place, width] at low high even ⊢ <;> omega
    · refine List.mem_map.mpr ⟨_, second, ?_⟩
      cases form <;> simp only [place, width] at low high odd ⊢ <;> omega

theorem reversedTwice {idx : ℕ} (inside : idx < 256) : reversed idx < 256 ∧ reversed (reversed idx) = idx := by
  obtain ⟨highLess, highTwice⟩ := reverseDigitTwice (idx / 16) (by omega)
  obtain ⟨lowLess, lowTwice⟩ := reverseDigitTwice (idx % 16) (by omega)
  have high : reversed idx / 16 = reverseDigit (idx / 16) := by rw [reversed]; omega
  have low : reversed idx % 16 = reverseDigit (idx % 16) := by rw [reversed]; omega
  refine ⟨by rw [reversed]; omega, ?_⟩
  rw [reversed, high, low, highTwice, lowTwice]
  omega

/- A program loads its whole cube. -/
theorem loadRun {pid a : ℕ} : a ∈ (form.program input output pid).loads ↔
    input + pid / 16 * form.cubeWords ≤ a ∧ a < input + (pid / 16 + 1) * form.cubeWords := by
  cases form with
  | complex direction =>
      simp only [program, complexProgram, List.mem_flatMap, List.mem_range, List.mem_cons, List.not_mem_nil, or_false,
        complexSource, cubeWords]
      constructor
      · rintro ⟨plane, planeInside, idx, inside, here⟩
        have less := (reversedTwice inside).1
        omega
      · rintro ⟨low, high⟩
        have less : (a - (input + pid / 16 * 8192)) / 2 % 256 < 256 := Nat.mod_lt _ (by norm_num)
        obtain ⟨turned, back⟩ := reversedTwice less
        exact ⟨(a - (input + pid / 16 * 8192)) / 2 / 256, by omega, _, turned, by rw [back]; omega⟩
  | real =>
      simp only [program, realProgram, List.mem_flatMap, List.mem_range, List.mem_map, realSource, cubeWords]
      constructor
      · rintro ⟨plane, planeInside, idx, inside, here⟩
        omega
      · rintro ⟨low, high⟩
        exact ⟨(a - (input + pid / 16 * 4096)) / 256, by omega, (a - (input + pid / 16 * 4096)) % 256, by omega, by omega⟩

/- The transform of a cube depends on the words of the cube only. -/
theorem spectrumCongr {index k : ℕ} {m m' : ℕ → ℝ}
    (same : ∀ a, input + index * form.cubeWords ≤ a → a < input + (index + 1) * form.cubeWords → m a = m' a) :
    form.spectrum input index m k = form.spectrum input index m' k := by
  refine dft3Congr fun e inside => ?_
  cases form with
  | complex direction =>
      simp only [cubeWords] at same
      simp only [element]
      rw [same _ (by omega) (by omega), same (input + (index * 4096 + e) * 2 + 1) (by omega) (by omega)]
  | real =>
      simp only [cubeWords] at same
      simp only [element]
      rw [same _ (by omega) (by omega)]

theorem programSound (pid : ℕ) : (form.program input output pid).Sound where
  once := by
    rw [Program.targets, storesRows, List.map_flatMap]
    refine flatMapNodup (fun a => ((a - output) / 2 / form.width - pid * 16) * 16 + (a - output) / 2 % form.width)
      List.nodup_range (fun idx _ => ?_) fun idx inside a listed => ?_
    · split_ifs <;> simp
    · have less := List.mem_range.mp inside
      split_ifs at listed with kept
      · simp only [List.map_cons, List.map_nil, List.mem_cons, List.not_mem_nil, or_false] at listed
        cases form <;> simp only [place, width] at listed kept ⊢ <;> omega
      · simp at listed
  known := by
    intro entry listed seen seen' same
    have agree : ∀ row < 16, ∀ col < 16, form.registers input pid seen (row * 16 + col) =
        form.registers input pid seen' (row * 16 + col) := by
      intro row rowInside col colInside
      rw [registersSpectrum rowInside colInside, registersSpectrum rowInside colInside]
      exact spectrumCongr fun a low high => same a (loadRun.mpr ⟨low, high⟩)
    obtain ⟨row, rowInside, col, narrow, _, rfl | rfl⟩ := entryOf listed
    · exact congrArg Complex.re (agree row rowInside col narrow)
    · exact congrArg Complex.im (agree row rowInside col narrow)

end Shapes

end Values

section Races
variable {form input output} {batch : ℕ}

theorem apartRaceFree (apart : form.Apart input output batch) : RaceFree (form.program input output) (programs batch) := by
  intro p first q second other a target
  have pInside := List.mem_range.mp first
  have qInside := List.mem_range.mp second
  rw [targetRun] at target
  rw [loadRun, targetRun]
  unfold Apart at apart
  cases form <;> simp only [cubeWords, width] at target apart ⊢ <;> omega

theorem apartExact (apart : form.Apart input output batch) : form.Exact input output batch := by
  intro m s s' fresh run finished index inside k0 first k1 second k2 third
  have stored := raceFreeAlways (fun p _ => programSound p) (apartRaceFree apart) s s' fresh run finished
  have member : index * 16 + k0 ∈ programs batch := List.mem_range.mpr (by omega)
  obtain ⟨real, imaginary⟩ := @entryRow form input output (index * 16 + k0) k1 k2 second third
  have narrow : k2 < 16 := by
    cases form with
    | complex _ => exact third
    | real => exact lt_trans third (by decide)
  have value := @registersSpectrum form input (index * 16 + k0) k1 k2 second narrow m
  rw [show (index * 16 + k0) / 16 = index by omega, show (index * 16 + k0) % 16 = k0 by omega] at value
  rw [← value]
  exact Complex.ext (stored _ member _ real) (stored _ member _ imaginary)

end Races

section Pulses

/- One word of a cube. -/
def spike (x : ℕ) (v : ℝ) : ℕ → ℝ := fun y => if y = x then v else 0

/- The element a word of a cube belongs to, and what it is there. -/
def wordElement : Form → ℕ → ℕ
  | .complex _, offset => offset / 2
  | .real, offset => offset

noncomputable def wordUnit : Form → ℕ → ℂ
  | .complex _, offset => if offset % 2 = 0 then 1 else Complex.I
  | .real, _ => 1

/- What an element adds to a frequency. -/
noncomputable def wave (e k : ℕ) : ℂ :=
  let w := directionRoot form.direction 16
  w ^ (e / 16 / 16 * (k / 16 / 16)) * w ^ (e / 16 % 16 * (k / 16 % 16)) * w ^ (e % 16 * (k % 16))

variable {form input} {index offset k : ℕ} {v : ℝ}

theorem spikeHere {x y : ℕ} (here : y = x) : spike x v y = v := if_pos here

theorem spikeElsewhere {x y : ℕ} (elsewhere : y ≠ x) : spike x v y = 0 := if_neg elsewhere

theorem elementSpike (inside : offset < form.cubeWords) {e : ℕ} :
    form.element input index (spike (input + index * form.cubeWords + offset) v) e =
      if e = form.wordElement offset then (v : ℂ) * form.wordUnit offset else 0 := by
  cases form with
  | complex direction =>
      change (⟨spike (input + index * 8192 + offset) v (input + (index * 4096 + e) * 2),
          spike (input + index * 8192 + offset) v (input + (index * 4096 + e) * 2 + 1)⟩ : ℂ) =
        if e = offset / 2 then (v : ℂ) * (if offset % 2 = 0 then 1 else Complex.I) else 0
      by_cases here : e = offset / 2
      · rw [if_pos here]
        rcases Nat.mod_two_eq_zero_or_one offset with even | odd
        · rw [if_pos even, spikeHere (by omega), spikeElsewhere (by omega)]
          apply Complex.ext <;> simp
        · rw [if_neg (by omega), spikeElsewhere (by omega), spikeHere (by omega)]
          apply Complex.ext <;> simp
      · rw [if_neg here, spikeElsewhere (by omega), spikeElsewhere (by omega)]
        rfl
  | real =>
      change (⟨spike (input + index * 4096 + offset) v (input + index * 4096 + e), 0⟩ : ℂ) =
        if e = offset then (v : ℂ) * 1 else 0
      by_cases here : e = offset
      · rw [if_pos here, spikeHere (by omega)]
        apply Complex.ext <;> simp
      · rw [if_neg here, spikeElsewhere (by omega)]
        rfl

theorem elementLess (inside : offset < form.cubeWords) : form.wordElement offset < 16 * 16 * 16 := by
  cases form <;> simp only [wordElement, cubeWords] at inside ⊢ <;> omega

theorem spectrumSpike (inside : offset < form.cubeWords) :
    form.spectrum input index (spike (input + index * form.cubeWords + offset) v) k =
      (v : ℂ) * form.wordUnit offset * form.wave (form.wordElement offset) k := by
  rw [spectrum, funext fun e => @elementSpike form input index offset v inside e, dft3Pulse (elementLess inside)]
  rfl

theorem spectrumElsewhere {x : ℕ} (outside : x < input + index * form.cubeWords ∨ input + (index + 1) * form.cubeWords ≤ x) :
    form.spectrum input index (spike x v) k = 0 := by
  have silent : form.spectrum input index (fun _ => 0) k = 0 := by
    have still : form.element input index (fun _ => 0) = fun _ => 0 := by
      funext e
      cases form <;> rfl
    rw [spectrum, still, dft3Zero]
  rw [← silent]
  exact spectrumCongr fun a low high => if_neg (by omega)

theorem spectrumAdd {m m' : ℕ → ℝ} :
    form.spectrum input index (fun x => m x + m' x) k = form.spectrum input index m k + form.spectrum input index m' k := by
  have sum : form.element input index (fun x => m x + m' x) = fun e =>
      form.element input index m e + form.element input index m' e := by
    funext e
    cases form <;> apply Complex.ext <;> simp [element]
  rw [spectrum, sum, dft3Add]
  rfl

theorem rootEighth : directionRoot form.direction 16 ^ 8 = -1 := rootHalf

/- Half a cube later a word adds the same, up to the sign of an odd plane. -/
theorem waveHalf (e : ℕ) : form.wave (e + 2048) k = (-1) ^ (k / 256) * form.wave e k := by
  have plane : (e + 2048) / 16 / 16 = e / 16 / 16 + 8 := by omega
  have row : (e + 2048) / 16 % 16 = e / 16 % 16 := by omega
  have col : (e + 2048) % 16 = e % 16 := by omega
  have power : k / 16 / 16 = k / 256 := Nat.div_div_eq_div_mul k 16 16
  simp only [wave, plane, row, col, power, Nat.add_mul, pow_add, pow_mul, rootEighth]
  ring

theorem wordHalf : form.wordElement (offset + form.cubeWords / 2) = form.wordElement offset + 2048 ∧
    form.wordUnit (offset + form.cubeWords / 2) = form.wordUnit offset := by
  cases form with
  | complex _ =>
      have same : (offset + 8192 / 2) % 2 = offset % 2 := by omega
      refine ⟨?_, by simp only [wordUnit, cubeWords, same]⟩
      simp only [wordElement, cubeWords]
      omega
  | real => exact ⟨rfl, rfl⟩

theorem waveUnit (e : ℕ) : form.wave e k ≠ 0 := by
  have unit : directionRoot form.direction 16 ≠ 0 := fun zero => by
    have power := @rootEighth form
    rw [zero] at power
    norm_num at power
  exact mul_ne_zero (mul_ne_zero (pow_ne_zero _ unit) (pow_ne_zero _ unit)) (pow_ne_zero _ unit)

theorem wordUnitNonzero : form.wordUnit offset ≠ 0 := by
  cases form with
  | complex _ =>
      rw [wordUnit]
      split_ifs
      · exact one_ne_zero
      · exact Complex.I_ne_zero
  | real => exact one_ne_zero

end Pulses

section Overlap
variable {form input output} {batch : ℕ}

/- Two words half a cube apart, the second of the sign that silences an output plane. -/
def silentPair (a b plane : ℕ) : ℕ → ℝ := fun y => spike a 1 y + spike b (-(-1) ^ plane) y

/- The other half of a cube. -/
def otherHalf (form : Form) (offset : ℕ) : ℕ :=
  if offset < form.cubeWords / 2 then offset + form.cubeWords / 2 else offset - form.cubeWords / 2

theorem otherHalfCases {offset : ℕ} (inside : offset < form.cubeWords) :
    form.otherHalf offset < form.cubeWords ∧
      (form.otherHalf offset = offset + form.cubeWords / 2 ∨ offset = form.otherHalf offset + form.cubeWords / 2) := by
  have even : form.cubeWords = 2 * (form.cubeWords / 2) := by cases form <;> norm_num [cubeWords]
  unfold otherHalf
  split_ifs <;> omega

/- The words of a pair add up to nothing in the planes of one parity. -/
theorem pairSilent {index offset k : ℕ} (inside : offset < form.cubeWords) :
    form.spectrum input index (silentPair (input + index * form.cubeWords + offset)
      (input + index * form.cubeWords + form.otherHalf offset) (k / 256)) k = 0 := by
  obtain ⟨otherInside, half⟩ := otherHalfCases inside
  have square : ((-1 : ℂ) ^ (k / 256)) * (-1) ^ (k / 256) = 1 := by rw [← mul_pow]; simp
  unfold silentPair
  rw [spectrumAdd, spectrumSpike inside, spectrumSpike otherInside]
  rcases half with later | earlier
  · rw [later, wordHalf.1, wordHalf.2, waveHalf]
    push_cast
    linear_combination (-(form.wordUnit offset) * form.wave (form.wordElement offset) k) * square
  · rw [earlier, wordHalf.1, wordHalf.2, waveHalf]
    push_cast
    rw [← earlier]
    ring

/- A word both stored and read lies in the run of one program and in a cube that another one reads. -/
structure Meeting (form : Form) (input output batch : ℕ) where
  writer : ℕ
  reader : ℕ
  offset : ℕ
  writes : writer < batch * 16
  reads : reader < batch * 16
  apart : reader ≠ writer
  inside : offset < form.cubeWords
  low : output + writer * (16 * form.width * 2) ≤ input + reader / 16 * form.cubeWords + offset
  high : input + reader / 16 * form.cubeWords + offset < output + (writer + 1) * (16 * form.width * 2)

theorem meetingOf (meets : ¬ form.Apart input output batch) : Nonempty (form.Meeting input output batch) := by
  unfold Apart at meets
  rw [not_or, not_or, Nat.not_le, Nat.not_le] at meets
  obtain ⟨some_, first, second⟩ := meets
  -- the larger of the two pointers is both stored and read
  obtain ⟨a, inputLow, inputHigh, outputLow, outputHigh⟩ : ∃ a, input ≤ a ∧ a < input + batch * form.cubeWords ∧
      output ≤ a ∧ a < output + batch * 16 * (16 * form.width * 2) := by
    refine ⟨max input output, le_max_left _ _, ?_, le_max_right _ _, ?_⟩ <;>
      cases form <;> simp only [cubeWords, width] at first second ⊢ <;> omega
  obtain ⟨writer, writes, low, high⟩ : ∃ writer < batch * 16, output + writer * (16 * form.width * 2) ≤ a ∧
      a < output + (writer + 1) * (16 * form.width * 2) := by
    have run : 0 < 16 * form.width * 2 := by cases form <;> norm_num [width]
    have split := Nat.div_add_mod (a - output) (16 * form.width * 2)
    have less := Nat.mod_lt (a - output) run
    rw [Nat.mul_comm] at split
    refine ⟨(a - output) / (16 * form.width * 2), Nat.div_lt_of_lt_mul ?_, ?_, ?_⟩
    · rw [Nat.mul_comm]
      omega
    · omega
    · rw [Nat.add_mul, Nat.one_mul]
      omega
  obtain ⟨index, indexInside, offset, inside, here⟩ : ∃ index < batch, ∃ offset < form.cubeWords,
      a = input + index * form.cubeWords + offset := by
    refine ⟨(a - input) / form.cubeWords, ?_, (a - input) % form.cubeWords, ?_, ?_⟩ <;>
      cases form <;> simp only [cubeWords] at inputHigh ⊢ <;> omega
  obtain ⟨reader, reads, apart, same⟩ : ∃ reader < batch * 16, reader ≠ writer ∧ reader / 16 = index := by
    by_cases taken : index * 16 = writer
    · exact ⟨index * 16 + 1, by omega, by omega, by omega⟩
    · exact ⟨index * 16, by omega, taken, by omega⟩
  subst same
  rw [here] at low high
  exact ⟨⟨writer, reader, offset, writes, reads, apart, inside, low, high⟩⟩

namespace Meeting
variable (meeting : form.Meeting input output batch)

def word : ℕ := input + meeting.reader / 16 * form.cubeWords + meeting.offset

def partnerWord : ℕ := input + meeting.reader / 16 * form.cubeWords + form.otherHalf meeting.offset

/- The memory in which the writer stores nothing but zeros. -/
def memory : ℕ → ℝ := silentPair meeting.word meeting.partnerWord (meeting.writer % 16)

theorem writerSilent {row col : ℕ} (rowInside : row < 16) (colInside : col < 16) :
    form.registers input meeting.writer meeting.memory (row * 16 + col) = 0 := by
  rw [registersSpectrum rowInside colInside]
  have plane : ((meeting.writer % 16 * 16 + row) * 16 + col) / 256 = meeting.writer % 16 := by omega
  obtain ⟨otherInside, _⟩ := otherHalfCases meeting.inside
  by_cases same : meeting.writer / 16 = meeting.reader / 16
  · rw [same, memory, word, partnerWord]
    have silent := @pairSilent form input (meeting.reader / 16) meeting.offset
      ((meeting.writer % 16 * 16 + row) * 16 + col) meeting.inside
    rwa [plane] at silent
  · have outside : ∀ offset < form.cubeWords,
        input + meeting.reader / 16 * form.cubeWords + offset < input + meeting.writer / 16 * form.cubeWords ∨
          input + (meeting.writer / 16 + 1) * form.cubeWords ≤ input + meeting.reader / 16 * form.cubeWords + offset := by
      intro offset less
      cases form <;> simp only [cubeWords] at less ⊢ <;> omega
    unfold memory silentPair word partnerWord
    rw [spectrumAdd, spectrumElsewhere (outside _ meeting.inside), spectrumElsewhere (outside _ otherInside), add_zero]

/- After the writer one word of the pair is left. -/
theorem afterWriter : (form.program input output meeting.writer).run meeting.memory =
    spike meeting.partnerWord (-(-1) ^ (meeting.writer % 16)) := by
  obtain ⟨otherInside, half⟩ := otherHalfCases meeting.inside
  have wide : 16 * form.width * 2 ≤ form.cubeWords / 2 := by cases form <;> norm_num [cubeWords, width]
  have stored : meeting.word ∈ (form.program input output meeting.writer).targets :=
    targetRun.mpr ⟨meeting.low, meeting.high⟩
  have elsewhere : meeting.partnerWord ∉ (form.program input output meeting.writer).targets := by
    rw [targetRun]
    have low := meeting.low
    have high := meeting.high
    rw [Nat.add_mul, Nat.one_mul] at high ⊢
    unfold partnerWord
    generalize meeting.writer * (16 * form.width * 2) = start at low high ⊢
    omega
  funext y
  by_cases inside : y ∈ (form.program input output meeting.writer).targets
  · obtain ⟨entry, listed, rfl⟩ := List.mem_map.mp inside
    rw [runInside (programSound _) listed, spikeElsewhere fun here : entry.1 = meeting.partnerWord => elsewhere (here ▸ inside)]
    obtain ⟨row, rowInside, col, colInside, _, rfl | rfl⟩ := entryOf listed
    · exact congrArg Complex.re (meeting.writerSilent rowInside colInside)
    · exact congrArg Complex.im (meeting.writerSilent rowInside colInside)
  · rw [runOutside inside]
    unfold memory silentPair
    rw [spikeElsewhere fun here : y = meeting.word => inside (here ▸ stored), zero_add]

theorem fails (meeting : form.Meeting input output batch) : ¬ form.Exact input output batch := by
  intro exact_
  have writerListed : meeting.writer ∈ programs batch := List.mem_range.mpr meeting.writes
  have readerListed : meeting.reader ∈ (programs batch).erase meeting.writer :=
    (List.mem_erase_of_ne meeting.apart).mpr (List.mem_range.mpr meeting.reads)
  let rest := ((programs batch).erase meeting.writer).erase meeting.reader
  have order : (meeting.writer :: meeting.reader :: rest).Perm (programs batch) :=
    ((List.perm_cons_erase readerListed).symm.cons _).trans (List.perm_cons_erase writerListed).symm
  have once : (meeting.writer :: meeting.reader :: rest).Nodup := order.nodup_iff.mpr List.nodup_range
  have value := alwaysSerial (fun p _ => programSound p) (exact_ meeting.memory) order once (meeting.reader / 16)
    (by have reads := meeting.reads; omega) (meeting.reader % 16) (Nat.mod_lt _ (by norm_num)) 0 (by norm_num) 0
    (by cases form <;> norm_num [width])
  rw [show meeting.reader / 16 * 16 + meeting.reader % 16 = meeting.reader by omega] at value
  -- the other programs leave what the reader stored
  have kept : ∀ memory : ℕ → ℝ, ∀ a ∈ (form.program input output meeting.reader).targets,
      serial (form.program input output) rest memory a = memory a := by
    intro memory a target
    refine serialKeeps fun p inside other => ?_
    have different : p ≠ meeting.reader := fun same =>
      (List.nodup_cons.mp (List.nodup_cons.mp once).2).1 (same ▸ inside)
    rw [targetRun] at target other
    rcases Nat.lt_or_gt_of_ne different with less | more
    · have gap := Nat.mul_le_mul_right (16 * form.width * 2) (Nat.succ_le_of_lt less)
      rw [Nat.succ_eq_add_one] at gap
      omega
    · have gap := Nat.mul_le_mul_right (16 * form.width * 2) (Nat.succ_le_of_lt more)
      rw [Nat.succ_eq_add_one] at gap
      omega
  have final : serial (form.program input output) (meeting.writer :: meeting.reader :: rest) meeting.memory =
      serial (form.program input output) rest ((form.program input output meeting.reader).run
        (spike meeting.partnerWord (-(-1) ^ (meeting.writer % 16)))) := by
    rw [← meeting.afterWriter]
    rfl
  obtain ⟨real, imaginary⟩ := @entryRow form input output meeting.reader 0 0 (by norm_num)
    (by cases form <;> norm_num [width])
  have stored : form.stored output meeting.reader 0 0 (serial (form.program input output)
      (meeting.writer :: meeting.reader :: rest) meeting.memory) =
      form.registers input meeting.reader (spike meeting.partnerWord (-(-1) ^ (meeting.writer % 16))) (0 * 16 + 0) := by
    rw [final]
    refine Complex.ext ?_ ?_
    · exact (kept _ _ (List.mem_map_of_mem real)).trans (runInside (programSound _) real)
    · exact (kept _ _ (List.mem_map_of_mem imaginary)).trans (runInside (programSound _) imaginary)
  rw [stored, registersSpectrum (by norm_num) (by norm_num)] at value
  unfold memory silentPair word at value
  rw [spectrumAdd, right_eq_add, spectrumSpike meeting.inside] at value
  exact mul_ne_zero (mul_ne_zero (by norm_num) wordUnitNonzero) (waveUnit _) value

end Meeting

theorem exactApart (exact_ : form.Exact input output batch) : form.Apart input output batch := by
  by_contra meets
  obtain ⟨meeting⟩ := meetingOf meets
  exact meeting.fails exact_

end Overlap

end Form

/- Whatever order its loads and stores take, the launch leaves the transform of every cube, complex or real, just when
what it reads and what it writes do not meet. -/
theorem fusedCubeExact (form : Form) (input output batch : ℕ) :
    form.Exact input output batch ↔ form.Apart input output batch :=
  ⟨Form.exactApart, Form.apartExact⟩

/- A single cube transformed in place: the first plane is stored while the other programs still read it. -/
theorem inPlaceCubeRaces : ¬ (Form.complex .forward).Exact 0 0 1 := fun exact_ =>
  absurd (Form.exactApart exact_) (by decide)

end FlagFft.ThreeDim.FusedCube
