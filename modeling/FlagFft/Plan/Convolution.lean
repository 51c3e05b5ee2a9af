import FlagFft.Device
import FlagFft.Library.Scan
import FlagFft.Plan.Factorization
import Mathlib.Algebra.Order.Field.Rat
import Mathlib.Data.List.Nodup
import Mathlib.Tactic.Linarith

/-! The length of a Bluestein convolution: the power of two above the minimum, or the cheapest of a set of lengths below
it. Costs are exact numbers. -/
namespace FlagFft.Plan
open Library.Scan

def kBluesteinConvolutionSearchWindow : ℕ := 4096

def kBluesteinPow2ConvMaxLength : ℕ := 1048576

/- What the choice reads of the request, and the variable FLAGFFT_NPU_2D_BLUESTEIN_SMOOTH_CONV. -/
structure ConvolutionContext where
  deviceType : String
  inputDtype : String
  originRank : ℤ
  smoothSetting : Option String

/- 3.0 * cost_for(c) + c -/
def convolutionCost (costFor : ℕ → ℚ) (c : ℕ) : ℚ := 3 * costFor c + c

/- base * prime, base * prime^2, .. up to the power; `power` steps are enough. -/
def primeMultiples (power prime : ℕ) : (fuel : ℕ) → (candidate : ℕ) → List ℕ
  | 0, _ => []
  | fuel + 1, candidate =>
    if candidate ≤ power / prime then candidate * prime :: primeMultiples power prime fuel (candidate * prime) else []

def extendByPrime (power : ℕ) (previous : List ℕ) (prime : ℕ) : List ℕ :=
  previous ++ previous.flatMap (primeMultiples power prime power)

/- The products of 2, 3, 5 and 7 up to the power, in the order in which they are generated. -/
def smoothCandidates (power : ℕ) : List ℕ := [2, 3, 5, 7].foldl (extendByPrime power) [1]

/- One step of the loop over them. -/
def smoothStep (costFor : ℕ → ℚ) (minimum best candidate : ℕ) : ℕ :=
  if candidate < minimum ∨ best ≤ candidate then best
  else
    let factorization := factorizeSupportedRadices candidate
    if factorization.remainder ≠ 1 ∨ factorization.factors = [] then best
    else pick (convolutionCost costFor) best candidate

def smoothLength (costFor : ℕ → ℚ) (minimum power : ℕ) : ℕ :=
  (smoothCandidates power).foldl (smoothStep costFor minimum) power

def addSupportedCandidate (candidates : List ℕ) (candidate : ℕ) : List ℕ :=
  if candidate ∈ candidates then candidates
  else if Supported candidate then candidates ++ [candidate] else candidates

def windowLimit (minimum power : ℕ) : ℕ :=
  if kBluesteinConvolutionSearchWindow < power - minimum then minimum + kBluesteinConvolutionSearchWindow else power

def windowCandidates (minimum power : ℕ) : List ℕ :=
  addSupportedCandidate
    ((List.range' minimum (windowLimit minimum power + 1 - minimum)).foldl addSupportedCandidate []) power

def windowLength (costFor : ℕ → ℚ) (minimum power : ℕ) : ℕ :=
  match windowCandidates minimum power with
  | [] => power
  | first :: rest => (first :: rest).foldl (pick (convolutionCost costFor)) first

/- Which lengths are compared. -/
inductive Search where
  | powerOnly
  | smooth
  | window
  deriving DecidableEq, Repr

def convolutionSearch (context : ConvolutionContext) (power : ℕ) : Except String Search :=
  if context.deviceType = "npu" then
    if context.smoothSetting ≠ none ∧ context.smoothSetting ≠ some "0" ∧ context.smoothSetting ≠ some "1" ∧
        context.smoothSetting ≠ some "auto" then
      .error "FLAGFFT_NPU_2D_BLUESTEIN_SMOOTH_CONV must be 0, 1 or auto"
    else if context.originRank = 2 ∧ context.smoothSetting ≠ none ∧ context.smoothSetting ≠ some "0" then .ok .smooth
    else .ok .powerOnly
  else if (context.inputDtype = "complex64" ∨ context.inputDtype = "float32") ∧ power ≤ kBluesteinPow2ConvMaxLength then
    .ok .powerOnly
  else .ok .window

def nextSupportedConvolutionLength (context : ConvolutionContext) (costFor : ℕ → ℚ) (minimum : ℕ) : Except String ℕ :=
  if minimum ≤ 1 then .ok 1
  else do
    let power := ceilPowerOfTwo minimum
    match ← convolutionSearch context power with
    | .powerOnly => return power
    | .smooth => return smoothLength costFor minimum power
    | .window => return windowLength costFor minimum power

/- The lengths a search is to choose from. -/
def Search.Candidate (search : Search) (minimum c : ℕ) : Prop :=
  let power := ceilPowerOfTwo minimum
  match search with
  | .powerOnly => c = power
  | .smooth => (∃ a b e d, c = 2 ^ a * 3 ^ b * 5 ^ e * 7 ^ d) ∧ minimum ≤ c ∧ c ≤ power
  | .window => (Supported c ∧ minimum ≤ c ∧ c ≤ min power (minimum + 4096)) ∨ c = power

structure LengthChosen (search : Search) (costFor : ℕ → ℚ) (minimum length : ℕ) : Prop where
  lower : minimum ≤ length
  upper : length ≤ ceilPowerOfTwo minimum
  supported : Supported length
  candidate : search.Candidate minimum length
  cheapest : ∀ c, search.Candidate minimum c → convolutionCost costFor length ≤ convolutionCost costFor c

/- The candidates below the power that are long enough are generated in descending order. -/
def Descending (minimum : ℕ) : Prop :=
  ((smoothCandidates (ceilPowerOfTwo minimum)).filter fun c => minimum ≤ c ∧ c < ceilPowerOfTwo minimum).Pairwise (· ≥ ·)

section Generation

variable {power prime base n : ℕ}

theorem memPrimeMultiples {fuel : ℕ} (positive : 0 < base) (two : 2 ≤ prime) (enough : power ≤ base + fuel) :
    n ∈ primeMultiples power prime fuel base ↔ n ≤ power ∧ ∃ e, n = base * prime ^ (e + 1) := by
  induction fuel generalizing base with
  | zero =>
      simp only [primeMultiples, List.not_mem_nil, false_iff, not_and]
      rintro small ⟨e, rfl⟩
      have grows : base * 2 ≤ base * prime ^ (e + 1) :=
        Nat.mul_le_mul_left _ (two.trans (Nat.le_self_pow (Nat.succ_ne_zero e) prime))
      omega
  | succ fuel ih =>
      unfold primeMultiples
      have grows : base + 1 ≤ base * prime := by
        have doubled := Nat.mul_le_mul_left base two
        omega
      split
      next more =>
        have inside : base * prime ≤ power := (Nat.le_div_iff_mul_le (by omega)).mp more
        rw [List.mem_cons, ih (by omega) (by omega)]
        constructor
        · rintro (rfl | ⟨small, e, rfl⟩)
          · exact ⟨inside, 0, by ring⟩
          · exact ⟨small, e + 1, by ring⟩
        · rintro ⟨small, e, rfl⟩
          cases e with
          | zero => exact .inl (by ring)
          | succ e => exact .inr ⟨small, e, by ring⟩
      next beyond =>
        have outside : power < base * prime := by
          rw [Nat.le_div_iff_mul_le (by omega)] at beyond
          omega
        simp only [List.not_mem_nil, false_iff, not_and]
        rintro small ⟨e, rfl⟩
        have least : base * prime ≤ base * prime ^ (e + 1) :=
          Nat.mul_le_mul_left _ (Nat.le_self_pow (Nat.succ_ne_zero e) prime)
        omega

/- The numbers up to the power with some of the primes only. -/
def Generates (candidates : List ℕ) (power : ℕ) (kind : ℕ → Prop) : Prop :=
  ∀ n, n ∈ candidates ↔ n ≤ power ∧ 0 < n ∧ kind n

theorem extendGenerates {previous : List ℕ} {kind : ℕ → Prop} (two : 2 ≤ prime) (all : Generates previous power kind) :
    Generates (extendByPrime power previous prime) power fun n => ∃ base e, kind base ∧ n = base * prime ^ e := by
  intro n
  rw [extendByPrime, List.mem_append, List.mem_flatMap]
  constructor
  · rintro (old | ⟨base, member, new⟩)
    · obtain ⟨small, positive, known⟩ := (all n).mp old
      exact ⟨small, positive, n, 0, known, by simp⟩
    · obtain ⟨_, positive, known⟩ := (all base).mp member
      obtain ⟨small, e, rfl⟩ := (memPrimeMultiples positive two (by omega)).mp new
      exact ⟨small, Nat.mul_pos positive (Nat.pow_pos (by omega)), base, e + 1, known, rfl⟩
  · rintro ⟨small, positive, base, e, known, rfl⟩
    have some_ : 0 < base := Nat.pos_of_mul_pos_right positive
    have below : base ≤ power := (Nat.le_mul_of_pos_right base (Nat.pow_pos (by omega))).trans small
    have member := (all base).mpr ⟨below, some_, known⟩
    cases e with
    | zero => exact .inl (by simpa using member)
    | succ e => exact .inr ⟨base, member, (memPrimeMultiples some_ two (by omega)).mpr ⟨small, e, rfl⟩⟩

theorem smoothGenerates (positive : 0 < power) :
    Generates (smoothCandidates power) power fun n => ∃ a b e d, n = 2 ^ a * 3 ^ b * 5 ^ e * 7 ^ d := by
  have one : Generates [1] power (· = 1) := by
    intro n
    rw [List.mem_singleton]
    omega
  have all := @extendGenerates power 7 _ _ (by decide) (@extendGenerates power 5 _ _ (by decide)
    (@extendGenerates power 3 _ _ (by decide) (@extendGenerates power 2 _ _ (by decide) one)))
  intro n
  rw [smoothCandidates]
  simp only [List.foldl_cons, List.foldl_nil]
  rw [all n]
  refine and_congr_right fun _ => and_congr_right fun _ => ?_
  constructor
  · rintro ⟨_, d, ⟨_, e, ⟨_, b, ⟨_, a, rfl, rfl⟩, rfl⟩, rfl⟩, rfl⟩
    exact ⟨a, b, e, d, by ring⟩
  · rintro ⟨a, b, e, d, rfl⟩
    exact ⟨_, d, ⟨_, e, ⟨_, b, ⟨1, a, rfl, rfl⟩, rfl⟩, rfl⟩, by ring⟩

end Generation

section Distinct

variable {power prime base n : ℕ}

theorem primeMultiplePower {fuel : ℕ} (member : n ∈ primeMultiples power prime fuel base) : ∃ e, n = base * prime ^ (e + 1) := by
  induction fuel generalizing base with
  | zero => simp [primeMultiples] at member
  | succ fuel ih =>
      unfold primeMultiples at member
      split at member
      · rcases List.mem_cons.mp member with rfl | later
        · exact ⟨0, by ring⟩
        · obtain ⟨e, rfl⟩ := ih later
          exact ⟨e + 1, by ring⟩
      · simp at member

theorem primeMultiplesNodup (fuel : ℕ) (positive : 0 < base) (two : 2 ≤ prime) :
    (primeMultiples power prime fuel base).Nodup := by
  induction fuel generalizing base with
  | zero => exact List.nodup_nil
  | succ fuel ih =>
      unfold primeMultiples
      split
      · refine List.nodup_cons.mpr ⟨fun member => ?_, ih (Nat.mul_pos positive (by omega))⟩
        obtain ⟨e, same⟩ := primeMultiplePower member
        have some_ : 0 < base * prime := Nat.mul_pos positive (by omega)
        have one := Nat.eq_of_mul_eq_mul_left some_ ((Nat.mul_one _).trans same)
        have more : 1 < prime ^ (e + 1) := Nat.one_lt_pow (Nat.succ_ne_zero e) two
        omega
      · exact List.nodup_nil

/- Without the prime, the rest of two numbers can be told. -/
theorem primeFreePart {a b i j : ℕ} (isPrime : prime.Prime) (free : ¬prime ∣ a) (free' : ¬prime ∣ b)
    (same : a * prime ^ i = b * prime ^ j) : a = b ∧ i = j := by
  induction i generalizing j with
  | zero =>
      cases j with
      | zero => exact ⟨by simpa using same, rfl⟩
      | succ j => exact absurd ⟨b * prime ^ j, by rw [← Nat.mul_one a, ← pow_zero prime, same]; ring⟩ free
  | succ i ih =>
      cases j with
      | zero => exact absurd ⟨a * prime ^ i, by rw [← Nat.mul_one b, ← pow_zero prime, ← same]; ring⟩ free'
      | succ j =>
          have less : a * prime ^ i = b * prime ^ j := by
            refine Nat.eq_of_mul_eq_mul_right isPrime.pos ?_
            rw [Nat.mul_assoc, Nat.mul_assoc, ← pow_succ, ← pow_succ]
            exact same
          obtain ⟨bases, steps⟩ := ih less
          exact ⟨bases, congrArg Nat.succ steps⟩

theorem extendNodup {previous : List ℕ} (isPrime : prime.Prime) (once : previous.Nodup) (free : ∀ n ∈ previous, ¬prime ∣ n) :
    (extendByPrime power previous prime).Nodup := by
  have positive : ∀ n ∈ previous, 0 < n := fun n member => Nat.pos_of_ne_zero fun zero => free n member (zero ▸ dvd_zero prime)
  refine List.nodup_append.mpr ⟨once, List.nodup_flatMap.mpr ⟨fun n member =>
    primeMultiplesNodup power (positive n member) isPrime.two_le, once.imp_of_mem ?_⟩, ?_⟩
  · intro a b first second apart n here there
    obtain ⟨i, rfl⟩ := primeMultiplePower here
    obtain ⟨j, same⟩ := primeMultiplePower there
    exact apart (primeFreePart isPrime (free a first) (free b second) same).1
  · intro a old b new same
    obtain ⟨base, member, here⟩ := List.mem_flatMap.mp new
    obtain ⟨e, rfl⟩ := primeMultiplePower here
    exact free a old (same ▸ ⟨base * prime ^ e, by ring⟩)

/- The primes a generated number has are those of its list. -/
theorem extendFree {previous : List ℕ} {other : ℕ} (isPrime : prime.Prime) (isPrime' : other.Prime) (apart : other ≠ prime)
    (free : ∀ n ∈ previous, ¬other ∣ n) : ∀ n ∈ extendByPrime power previous prime, ¬other ∣ n := by
  intro n member
  rcases List.mem_append.mp member with old | new
  · exact free n old
  · obtain ⟨base, known, here⟩ := List.mem_flatMap.mp new
    obtain ⟨e, rfl⟩ := primeMultiplePower here
    intro divides
    rcases isPrime'.dvd_mul.mp divides with early | late
    · exact free base known early
    · exact apart ((Nat.prime_dvd_prime_iff_eq isPrime' isPrime).mp (isPrime'.dvd_of_dvd_pow late))

theorem smoothCandidatesNodup (power : ℕ) : (smoothCandidates power).Nodup := by
  have one {prime : ℕ} (isPrime : prime.Prime) : ∀ n ∈ [1], ¬prime ∣ n := by
    intro n member divides
    rw [List.mem_singleton.mp member] at divides
    exact isPrime.one_lt.ne' (Nat.dvd_one.mp divides)
  have two : Nat.Prime 2 := by decide
  have three : Nat.Prime 3 := by decide
  have five : Nat.Prime 5 := by decide
  have seven : Nat.Prime 7 := by decide
  have free (prime : ℕ) (isPrime : prime.Prime) (apart : prime ≠ 2) := @extendFree power 2 [1] prime two isPrime apart (one isPrime)
  have free' (prime : ℕ) (isPrime : prime.Prime) (apart : prime ≠ 2) (apart' : prime ≠ 3) :=
    @extendFree power 3 _ prime three isPrime apart' (free prime isPrime apart)
  have free'' := @extendFree power 5 _ 7 five seven (by decide) (free' 7 seven (by decide) (by decide))
  simp only [smoothCandidates, List.foldl_cons, List.foldl_nil]
  refine extendNodup seven (extendNodup five (extendNodup three (extendNodup two (List.nodup_singleton 1) (one two))
    (free 3 three (by decide))) (free' 5 five (by decide) (by decide))) free''

end Distinct

section Power

variable {minimum : ℕ}

theorem powerEven (several : 2 ≤ minimum) : ∃ e, ceilPowerOfTwo minimum = 2 ^ (e + 1) := by
  obtain ⟨e, same⟩ := Nat.exists_eq_succ_of_ne_zero (Nat.clog_pos Nat.one_lt_two several).ne'
  exact ⟨e, by rw [ceilPowerOfTwo, same]⟩

theorem powerSupported (several : 2 ≤ minimum) : Supported (ceilPowerOfTwo minimum) := by
  obtain ⟨e, power⟩ := powerEven several
  refine smoothSupported (several.trans (leCeilPowerOfTwo minimum)) ?_
  rw [power]
  exact smoothPow (by decide) Nat.prime_two _

theorem smoothFactors {n : ℕ} (several : 2 ≤ n) (kind : ∃ a b e d, n = 2 ^ a * 3 ^ b * 5 ^ e * 7 ^ d) : Supported n := by
  obtain ⟨a, b, e, d, rfl⟩ := kind
  refine smoothSupported several (smoothMul (smoothMul (smoothMul ?_ ?_) ?_) ?_)
  · exact smoothPow (by decide) Nat.prime_two a
  · exact smoothPow (by decide) Nat.prime_three b
  · exact smoothPow (by decide) Nat.prime_five e
  · exact smoothPow (by decide) (by decide) d

end Power

section Smooth

variable {minimum power : ℕ} {costFor : ℕ → ℚ}

/- The candidates the loop looks at. -/
def shortCandidates (minimum power : ℕ) : List ℕ := (smoothCandidates power).filter fun c => minimum ≤ c ∧ c < power

theorem memShortCandidates (positive : 0 < power) {c : ℕ} (some_ : 0 < minimum) : c ∈ shortCandidates minimum power ↔
    (∃ a b e d, c = 2 ^ a * 3 ^ b * 5 ^ e * 7 ^ d) ∧ minimum ≤ c ∧ c < power := by
  rw [shortCandidates, List.mem_filter, smoothGenerates positive c]
  simp only [decide_eq_true_eq]
  constructor
  · rintro ⟨⟨_, _, kind⟩, bounds⟩
    exact ⟨kind, bounds⟩
  · rintro ⟨kind, lower, upper⟩
    exact ⟨⟨upper.le, by omega, kind⟩, lower, upper⟩

/- The factorization never fails here, so what is left is the scan that only goes down. -/
theorem smoothScan (several : 2 ≤ minimum) (positive : 0 < power) : smoothLength costFor minimum power =
    (shortCandidates minimum power).foldl (pickBelow (convolutionCost costFor)) power := by
  have fold (rest : List ℕ) (known : ∀ c ∈ rest, minimum ≤ c → Supported c) (best : ℕ) (below : best ≤ power) :
      rest.foldl (smoothStep costFor minimum) best =
        (rest.filter fun c => minimum ≤ c ∧ c < power).foldl (pickBelow (convolutionCost costFor)) best := by
    induction rest generalizing best with
    | nil => rfl
    | cons c rest ih =>
        have later := ih fun c member => known c (List.mem_cons_of_mem _ member)
        rw [List.foldl_cons]
        by_cases bounds : minimum ≤ c ∧ c < power
        · have supported := known c List.mem_cons_self bounds.1
          have step : smoothStep costFor minimum best c = pickBelow (convolutionCost costFor) best c := by
            simp [smoothStep, pickBelow, not_lt.mpr bounds.1, supported.1, supported.2]
          have kept : pickBelow (convolutionCost costFor) best c ≤ power := by
            unfold pickBelow
            split
            · exact below
            · rcases pickCases (convolutionCost costFor) best c with new | old
              · rw [new]
                exact bounds.2.le
              · rw [old]
                exact below
          rw [step, List.filter_cons_of_pos (by simpa using bounds), List.foldl_cons]
          exact later _ kept
        · have step : smoothStep costFor minimum best c = best := if_pos (by omega)
          rw [step, List.filter_cons_of_neg (by simpa using bounds)]
          exact later best below
  refine fold _ (fun c member lower => ?_) power le_rfl
  exact smoothFactors (several.trans lower) ((smoothGenerates positive c).mp member).2.2

end Smooth

section Window

variable {minimum power : ℕ} {costFor : ℕ → ℚ}

theorem addedMember {candidates : List ℕ} {candidate c : ℕ} :
    c ∈ addSupportedCandidate candidates candidate ↔ c ∈ candidates ∨ (c = candidate ∧ Supported c) := by
  unfold addSupportedCandidate
  split
  next old =>
    constructor
    · exact .inl
    · rintro (known | ⟨rfl, -⟩)
      · exact known
      · exact old
  next =>
    split
    next supported =>
      rw [List.mem_append, List.mem_singleton]
      exact or_congr_right ⟨fun same => ⟨same, same ▸ supported⟩, And.left⟩
    next missing =>
      constructor
      · exact .inl
      · rintro (known | ⟨rfl, supported⟩)
        · exact known
        · exact absurd supported missing

theorem addedMembers {candidates offered : List ℕ} {c : ℕ} :
    c ∈ offered.foldl addSupportedCandidate candidates ↔ c ∈ candidates ∨ (c ∈ offered ∧ Supported c) := by
  induction offered generalizing candidates with
  | nil => simp
  | cons candidate offered ih =>
      rw [List.foldl_cons, ih, addedMember, List.mem_cons, or_assoc, or_and_right]

theorem memWindowCandidates (several : 2 ≤ minimum) {c : ℕ} : c ∈ windowCandidates minimum (ceilPowerOfTwo minimum) ↔
    Search.window.Candidate minimum c := by
  have power := leCeilPowerOfTwo minimum
  have limit : windowLimit minimum (ceilPowerOfTwo minimum) = min (ceilPowerOfTwo minimum) (minimum + 4096) := by
    unfold windowLimit kBluesteinConvolutionSearchWindow
    split <;> omega
  simp only [windowCandidates, addedMember, addedMembers, List.not_mem_nil, false_or, List.mem_range'_1, limit,
    Search.Candidate]
  refine or_congr ⟨fun inside => ⟨inside.2, inside.1.1, by omega⟩, fun inside => ⟨⟨inside.2.1, by omega⟩, inside.1⟩⟩ ?_
  exact ⟨And.left, fun same => ⟨same, same ▸ powerSupported several⟩⟩

theorem windowChosen (several : 2 ≤ minimum) :
    LengthChosen .window costFor minimum (windowLength costFor minimum (ceilPowerOfTwo minimum)) := by
  have power := leCeilPowerOfTwo minimum
  have last : ceilPowerOfTwo minimum ∈ windowCandidates minimum (ceilPowerOfTwo minimum) :=
    (memWindowCandidates several).mpr (.inr rfl)
  obtain ⟨first, rest, candidates⟩ := List.exists_cons_of_ne_nil (List.ne_nil_of_mem last)
  have scanned : windowLength costFor minimum (ceilPowerOfTwo minimum) =
      (first :: rest).foldl (pick (convolutionCost costFor)) first := by
    rw [windowLength, candidates]
  have chosen : windowLength costFor minimum (ceilPowerOfTwo minimum) ∈ windowCandidates minimum (ceilPowerOfTwo minimum) := by
    rw [scanned, candidates]
    rcases List.mem_cons.mp (@scanMember _ _ _ _ (convolutionCost costFor) first (first :: rest)) with same | member
    · rw [same]
      exact List.mem_cons_self
    · exact member
  have candidate := (memWindowCandidates several).mp chosen
  refine ⟨?_, ?_, ?_, candidate, fun c known => ?_⟩
  · rcases candidate with ⟨_, lower, _⟩ | same
    · exact lower
    · rwa [same]
  · rcases candidate with ⟨_, _, upper⟩ | same
    · exact upper.trans (min_le_left _ _)
    · exact same.le
  · rcases candidate with ⟨supported, _⟩ | same
    · exact supported
    · rw [same]
      exact powerSupported several
  · have member := (memWindowCandidates several).mpr known
    rw [candidates] at member
    rw [scanned]
    exact scanLe first (first :: rest) c (List.mem_cons_of_mem _ member)

theorem powerChosen (several : 2 ≤ minimum) : LengthChosen .powerOnly costFor minimum (ceilPowerOfTwo minimum) where
  lower := leCeilPowerOfTwo minimum
  upper := le_rfl
  supported := powerSupported several
  candidate := rfl
  cheapest _ same := by rw [same]

end Window

section Scanned

variable {minimum : ℕ} {costFor : ℕ → ℚ}

theorem memSmoothCandidate (several : 2 ≤ minimum) {c : ℕ} : Search.smooth.Candidate minimum c ↔
    c = ceilPowerOfTwo minimum ∨ c ∈ shortCandidates minimum (ceilPowerOfTwo minimum) := by
  have power := leCeilPowerOfTwo minimum
  rw [memShortCandidates (by omega) (by omega), Search.Candidate]
  constructor
  · rintro ⟨kind, lower, upper⟩
    exact (eq_or_lt_of_le upper).imp_right fun less => ⟨kind, lower, less⟩
  · rintro (rfl | ⟨kind, lower, upper⟩)
    · obtain ⟨e, same⟩ := powerEven several
      exact ⟨⟨e + 1, 0, 0, 0, by rw [same]; ring⟩, power, le_rfl⟩
    · exact ⟨kind, lower, upper.le⟩

theorem descendingChosen (several : 2 ≤ minimum) (order : Descending minimum) :
    LengthChosen .smooth costFor minimum (smoothLength costFor minimum (ceilPowerOfTwo minimum)) := by
  have power := leCeilPowerOfTwo minimum
  have bounds {c : ℕ} (known : Search.smooth.Candidate minimum c) := known.2
  have scanned : smoothLength costFor minimum (ceilPowerOfTwo minimum) =
      (shortCandidates minimum (ceilPowerOfTwo minimum)).foldl (pick (convolutionCost costFor)) (ceilPowerOfTwo minimum) := by
    rw [smoothScan several (by omega)]
    refine descendingScan order fun c member => ?_
    exact (bounds ((memSmoothCandidate several).mpr (.inr member))).2
  have chosen : Search.smooth.Candidate minimum (smoothLength costFor minimum (ceilPowerOfTwo minimum)) := by
    rw [memSmoothCandidate several, scanned, ← List.mem_cons]
    exact scanMember _ _
  refine ⟨(bounds chosen).1, (bounds chosen).2, smoothFactors (several.trans (bounds chosen).1) chosen.1, chosen,
    fun c known => ?_⟩
  rw [scanned]
  exact scanLe _ _ c (List.mem_cons.mpr ((memSmoothCandidate several).mp known))

/- Costs under which of two lengths the second is cheapest, the first next, and the power cheaper than the rest. -/
def hidingCost (power small large c : ℕ) : ℚ :=
  if c = large then 0 else if c = small then power else if c = power then 2 * power else 3 * power

/- A pair of candidates that ascend, and the first of them where it first comes up. -/
theorem ascendingPair (ascending : ¬Descending minimum) : ∃ before small after large,
    shortCandidates minimum (ceilPowerOfTwo minimum) = before ++ small :: after ∧ small < large ∧ large ∈ after ∧
      large ∉ before := by
  have once : (shortCandidates minimum (ceilPowerOfTwo minimum)).Nodup := (smoothCandidatesNodup _).filter _
  obtain ⟨small, large, sublist, rising⟩ : ∃ small large,
      [small, large].Sublist (shortCandidates minimum (ceilPowerOfTwo minimum)) ∧ small < large := by
    by_contra none_
    exact ascending (List.pairwise_iff_forall_sublist.mpr fun {a b} sub => not_lt.mp fun less => none_ ⟨a, b, sub, less⟩)
  obtain ⟨front, back, split, here, tail⟩ := List.cons_sublist_iff.mp sublist
  obtain ⟨before, between, rfl⟩ := List.append_of_mem here
  have later : large ∈ between ++ back := List.mem_append_right _ (List.singleton_sublist.mp tail)
  rw [List.append_assoc, List.cons_append] at split
  refine ⟨before, small, between ++ back, large, split, rising, later, fun early => ?_⟩
  rw [split] at once
  exact (List.nodup_append.mp once).2.2 large early large (List.mem_cons_of_mem _ later) rfl

theorem ascendingHides (several : 2 ≤ minimum) (ascending : ¬Descending minimum) : ∃ costFor,
    ¬LengthChosen .smooth costFor minimum (smoothLength costFor minimum (ceilPowerOfTwo minimum)) := by
  have power := leCeilPowerOfTwo minimum
  obtain ⟨before, small, after, large, split, order, later, fresh⟩ := ascendingPair ascending
  have bounds (c : ℕ) (member : c ∈ before ++ small :: after) : minimum ≤ c ∧ c < ceilPowerOfTwo minimum :=
    ((memShortCandidates (by omega) (by omega)).mp (split ▸ member)).2
  have below := (bounds small (by simp)).2
  have below' := (bounds large (by simp [later])).2
  obtain ⟨costFor, same⟩ : ∃ costFor, costFor = hidingCost (ceilPowerOfTwo minimum) small large := ⟨_, rfl⟩
  have high : (0 : ℚ) < ceilPowerOfTwo minimum := by exact_mod_cast (by omega : 0 < ceilPowerOfTwo minimum)
  have smallLess : (small : ℚ) < ceilPowerOfTwo minimum := by exact_mod_cast below
  have largeLess : (large : ℚ) < ceilPowerOfTwo minimum := by exact_mod_cast below'
  have smallWeight : convolutionCost costFor small = 3 * ceilPowerOfTwo minimum + small := by
    simp [convolutionCost, same, hidingCost, order.ne]
  have largeWeight : convolutionCost costFor large = large := by simp [convolutionCost, same, hidingCost]
  have powerWeight : convolutionCost costFor (ceilPowerOfTwo minimum) = 7 * ceilPowerOfTwo minimum := by
    rw [convolutionCost, same, hidingCost, if_neg below'.ne', if_neg below.ne', if_pos rfl]
    ring
  have hides : smoothLength costFor minimum (ceilPowerOfTwo minimum) = small := by
    rw [smoothScan several (by omega), split]
    refine scanHides order below fresh ?_ fun c member notSmall notLarge => ?_
    · rw [smallWeight, powerWeight]
      linarith
    · have notPower := (bounds c member).2.ne
      have positive : (0 : ℚ) ≤ c := Nat.cast_nonneg c
      rw [powerWeight, convolutionCost, same, hidingCost, if_neg notLarge, if_neg notSmall, if_neg notPower]
      linarith
  refine ⟨costFor, fun chosen => ?_⟩
  have cheapest := chosen.cheapest large ((memSmoothCandidate several).mpr (.inr (split ▸ by simp [later])))
  have positive : (0 : ℚ) ≤ small := Nat.cast_nonneg small
  rw [hides, smallWeight, largeWeight] at cheapest
  linarith

end Scanned

theorem searchRuns {context : ConvolutionContext} {minimum : ℕ} {costFor : ℕ → ℚ} {search : Search} (several : 2 ≤ minimum)
    (found : convolutionSearch context (ceilPowerOfTwo minimum) = .ok search) :
    nextSupportedConvolutionLength context costFor minimum = .ok (match search with
      | .powerOnly => ceilPowerOfTwo minimum
      | .smooth => smoothLength costFor minimum (ceilPowerOfTwo minimum)
      | .window => windowLength costFor minimum (ceilPowerOfTwo minimum)) := by
  rw [nextSupportedConvolutionLength, if_neg (by omega)]
  simp only [found]
  cases search <;> rfl

/- The smooth search passes over a candidate that is larger than the best one so far, however cheap it is. -/
theorem convolutionLengthChosen (context : ConvolutionContext) (minimum : ℕ) (several : 2 ≤ minimum) :
    (∀ costFor search length, convolutionSearch context (ceilPowerOfTwo minimum) = .ok search →
        nextSupportedConvolutionLength context costFor minimum = .ok length → LengthChosen search costFor minimum length) ↔
      (convolutionSearch context (ceilPowerOfTwo minimum) = .ok .smooth → Descending minimum) := by
  constructor
  · intro holds found
    by_contra ascending
    obtain ⟨costFor, wrong⟩ := ascendingHides several ascending
    exact wrong (holds costFor .smooth _ found (searchRuns several found))
  · intro order costFor search length found chosen
    rw [searchRuns several found] at chosen
    cases Except.ok.inj chosen
    cases search with
    | powerOnly => exact powerChosen several
    | smooth => exact descendingChosen several (order found)
    | window => exact windowChosen several

def smoothPlane : ConvolutionContext := ⟨"npu", "complex64", 2, some "auto"⟩

theorem convolutionLengthChosenThirteen :
    (∀ costFor search length, convolutionSearch smoothPlane (ceilPowerOfTwo 13) = .ok search →
        nextSupportedConvolutionLength smoothPlane costFor 13 = .ok length → LengthChosen search costFor 13 length) ↔
      (convolutionSearch smoothPlane (ceilPowerOfTwo 13) = .ok .smooth → Descending 13) :=
  convolutionLengthChosen smoothPlane 13 (by decide)

def kNaturalOrderRadices : List ℕ := [19, 17, 15, 13, 12, 11, 10, 9, 8, 7, 6, 5, 4, 3, 2]

/- while (factor % radix == 0) -/
def splitRadix (radix : ℕ) : (fuel : ℕ) → (factors : List ℕ) → (factor : ℕ) → List ℕ × ℕ
  | 0, factors, factor => (factors, factor)
  | fuel + 1, factors, factor =>
    if factor % radix = 0 then splitRadix radix fuel (factors ++ [radix]) (factor / radix) else (factors, factor)

/- The stages of a plan on an NPU, composite radices split into those with a natural-order codelet. -/
def stockhamFactors (n : ℕ) : List ℕ :=
  (factorizeSupportedRadices n).factors.foldl (fun factors factor =>
    (kNaturalOrderRadices.foldl (fun state radix => splitRadix radix factor state.1 state.2) (factors, factor)).1) []

/- What such a plan costs, for a length that is not computed directly. -/
def stockhamCost (n : ℕ) : ℚ := n * (stockhamFactors n).length

/- A convolution of at least 561 points gets 567 = 27 * 7 * 3 points in four stages; 735 = 15 * 7 * 7 in three stages are
cheaper. -/
theorem cheaperLengthHidden : ¬∀ (context : ConvolutionContext) (minimum : ℕ), 2 ≤ minimum → ∀ costFor search length,
    convolutionSearch context (ceilPowerOfTwo minimum) = .ok search →
      nextSupportedConvolutionLength context costFor minimum = .ok length → LengthChosen search costFor minimum length := by
  intro holds
  have power : ceilPowerOfTwo 561 = 1024 := by decide
  have found : convolutionSearch smoothPlane (ceilPowerOfTwo 561) = .ok .smooth := rfl
  have scanned : smoothLength stockhamCost 561 1024 = 567 := by decide +kernel
  have chosen := holds smoothPlane 561 (by decide) stockhamCost .smooth _ found (searchRuns (by decide) found)
  have cheapest := chosen.cheapest 735 ((memSmoothCandidate (by decide)).mpr (.inr ?_))
  · have dearer : convolutionCost stockhamCost 735 < convolutionCost stockhamCost 567 := by decide +kernel
    simp only [power, scanned] at cheapest
    exact absurd cheapest (not_le.mpr dearer)
  · rw [power]
    decide +kernel

end FlagFft.Plan
