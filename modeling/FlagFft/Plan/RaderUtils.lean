import FlagFft.Library.Generators
import FlagFft.Plan.AutoCandidates

/-! The number theory of Rader's algorithm as its loops compute it, in products of 64 bits. -/
namespace FlagFft.Plan.RaderUtils
open Library.Generators

inductive Fault where
  | overflow
  | thrown (message : String)
  | outOfFuel
  deriving DecidableEq, Repr

abbrev Checked (α : Type) : Type := Except Fault α

/- The product of two numbers that are not negative, where it is an int64_t. -/
def mul (a b : ℕ) : Checked ℕ := if a * b < 2 ^ 63 then .ok (a * b) else .error .overflow

section Loops

def modpowLoop : (fuel : ℕ) → (result base exp mod : ℕ) → Checked ℕ
  | 0, _, _, _, _ => .error .outOfFuel
  | fuel + 1, result, base, exp, mod =>
    if 0 < exp then do
      let result ← if exp % 2 ≠ 0 then (mul result base).map (· % mod) else .ok result
      let square ← mul base base
      modpowLoop fuel result (square % mod) (exp / 2) mod
    else .ok result

def modpow (base exp mod : ℕ) : Checked ℕ := modpowLoop (exp + 1) 1 (base % mod) exp mod

/- while (n % factor == 0) n /= factor -/
def divideOut : (fuel : ℕ) → (n factor : ℕ) → Checked ℕ
  | 0, _, _ => .error .outOfFuel
  | fuel + 1, n, factor => if n % factor = 0 then divideOut fuel (n / factor) factor else .ok n

def primeFactorsLoop : (fuel : ℕ) → (n factor : ℕ) → (factors : List ℕ) → Checked (List ℕ)
  | 0, _, _, _ => .error .outOfFuel
  | fuel + 1, n, factor, factors => do
    let square ← mul factor factor
    if square ≤ n then
      if n % factor ≠ 0 then primeFactorsLoop fuel n (factor + 1) factors
      else
        let rest ← divideOut (n + 1) n factor
        primeFactorsLoop fuel rest (factor + 1) (factors ++ [factor])
    else if 1 < n then .ok (factors ++ [n])
    else .ok factors

def primeFactorsUnique (n : ℕ) : Checked (List ℕ) := primeFactorsLoop (n + 1) n 2 []

def primeLoop : (fuel : ℕ) → (n divisor : ℕ) → Checked Bool
  | 0, _, _ => .error .outOfFuel
  | fuel + 1, n, divisor => do
    let square ← mul divisor divisor
    if square ≤ n then
      if n % divisor = 0 then .ok false else primeLoop fuel n (divisor + 2)
    else .ok true

def isPrimeLength (n : ℕ) : Checked Bool :=
  if n < 2 then .ok false
  else if n % 2 = 0 then .ok (n = 2)
  else primeLoop (n + 1) n 3

/- Whether no power of the root to phi over one of the factors is one. -/
def isPrimitive (p root : ℕ) : (factors : List ℕ) → Checked Bool
  | [] => .ok true
  | factor :: rest => do
    let power ← modpow root ((p - 1) / factor) p
    if power = 1 then .ok false else isPrimitive p root rest

def rootLoop (p : ℕ) (factors : List ℕ) : (fuel : ℕ) → (root : ℕ) → Checked ℕ
  | 0, _ => .error .outOfFuel
  | fuel + 1, root =>
    if root < p then do
      if ← isPrimitive p root factors then .ok root else rootLoop p factors fuel (root + 1)
    else .error (.thrown "failed to find primitive root for prime length")

def findPrimitiveRoot (p : ℕ) : Checked ℕ := do
  let prime ← isPrimeLength p
  if prime = false then .error (.thrown "Rader primitive root requires a prime length")
  else if p = 2 then .ok 1
  else
    let factors ← primeFactorsUnique (p - 1)
    rootLoop p factors p 2

/- So many entries, from the current value on. -/
def indexLoop (p root : ℕ) : (count : ℕ) → (value : ℕ) → Checked (List ℕ)
  | 0, _ => .ok []
  | count + 1, value => do
    let product ← mul value root
    let rest ← indexLoop p root count (product % p)
    .ok (value :: rest)

def buildRaderIndexTable (p root : ℕ) : Checked (List ℕ) :=
  if p < 2 then .error (.thrown "Rader index table requires length >= 2") else indexLoop p root (p - 1) 1

end Loops

theorem mulExact {a b : ℕ} (fits : a * b < 2 ^ 63) : mul a b = .ok (a * b) := if_pos fits

section Powers
variable {fuel result base exp mod : ℕ}

theorem residuesFit (square : (mod - 1) ^ 2 < 2 ^ 63) {a b : ℕ} (first : a < mod) (second : b < mod) : a * b < 2 ^ 63 := by
  refine lt_of_le_of_lt ?_ square
  rw [Nat.pow_two]
  exact Nat.mul_le_mul (by omega) (by omega)

/- The result so far times the base to what is left of the exponent stays the same. -/
theorem modpowLoopExact (square : (mod - 1) ^ 2 < 2 ^ 63) (first : result < mod) (second : base < mod) (enough : exp < fuel) :
    modpowLoop fuel result base exp mod = .ok (result * base ^ exp % mod) := by
  induction fuel generalizing result base exp with
  | zero => omega
  | succ fuel ih =>
      unfold modpowLoop
      have positive : 0 < mod := by omega
      split
      next more =>
        rw [mulExact (residuesFit square first second), mulExact (residuesFit square second second)]
        have halves : exp = exp / 2 * 2 + exp % 2 := (Nat.div_add_mod' exp 2).symm
        have squares : base ^ (exp / 2 * 2) = (base * base) ^ (exp / 2) := by rw [Nat.mul_comm, pow_mul, Nat.pow_two]
        split
        next odd =>
          have one : exp % 2 = 1 := by omega
          change modpowLoop fuel (result * base % mod) (base * base % mod) (exp / 2) mod = _
          rw [ih (Nat.mod_lt _ positive) (Nat.mod_lt _ positive) (by omega)]
          congr 1
          have same : result * base * (base * base) ^ (exp / 2) = result * base ^ exp := by
            conv_rhs => rw [halves, one, pow_succ, squares, Nat.mul_comm _ base, ← Nat.mul_assoc]
          calc result * base % mod * (base * base % mod) ^ (exp / 2) % mod
              = result * base * (base * base) ^ (exp / 2) % mod := ((Nat.mod_modEq _ _).mul ((Nat.mod_modEq _ _).pow _))
            _ = result * base ^ exp % mod := by rw [same]
        next even =>
          have none_ : exp % 2 = 0 := by omega
          change modpowLoop fuel result (base * base % mod) (exp / 2) mod = _
          rw [ih first (Nat.mod_lt _ positive) (by omega)]
          congr 1
          have same : result * (base * base) ^ (exp / 2) = result * base ^ exp := by
            conv_rhs => rw [halves, none_, Nat.add_zero, squares]
          calc result * (base * base % mod) ^ (exp / 2) % mod
              = result * (base * base) ^ (exp / 2) % mod := ((Nat.ModEq.refl result).mul ((Nat.mod_modEq _ _).pow _))
            _ = result * base ^ exp % mod := by rw [same]
      next done =>
        obtain rfl : exp = 0 := by omega
        rw [pow_zero, Nat.mul_one, Nat.mod_eq_of_lt first]

theorem modpowExact (square : (mod - 1) ^ 2 < 2 ^ 63) (several : 1 < mod) : modpow base exp mod = .ok (base ^ exp % mod) := by
  rw [modpow, modpowLoopExact square several (Nat.mod_lt _ (by omega)) (Nat.lt_succ_self exp), Nat.one_mul, ← Nat.pow_mod]

end Powers

section Factors
variable {fuel n factor divisor : ℕ}

/- What is below 2 ^ 32 is searched with divisors whose squares are words. -/
theorem squareFits (small : divisor < 2 ^ 17) : mul divisor divisor = .ok (divisor * divisor) := by
  refine mulExact ?_
  calc divisor * divisor ≤ 2 ^ 17 * 2 ^ 17 := Nat.mul_le_mul small.le small.le
    _ < 2 ^ 63 := by decide

theorem rootSmall (small : n < 2 ^ 32) (within : divisor * divisor ≤ n) : divisor < 2 ^ 16 := by
  by_contra large
  have squares : 2 ^ 16 * 2 ^ 16 ≤ divisor * divisor := Nat.mul_le_mul (by omega) (by omega)
  omega

theorem divideOutExact (positive : 0 < n) (wide : 2 ≤ factor) (enough : n < fuel) :
    ∃ rest, divideOut fuel n factor = .ok rest ∧ 0 < rest ∧ rest ∣ n ∧ ¬ factor ∣ rest ∧
      ∀ q, q.Prime → q ∣ n → q ∣ factor ∨ q ∣ rest := by
  induction fuel generalizing n with
  | zero => omega
  | succ fuel ih =>
      unfold divideOut
      split
      next zero =>
        have divides := Nat.dvd_of_mod_eq_zero zero
        have less := Nat.div_lt_self positive wide
        obtain ⟨rest, run, some_, inside, free, all⟩ :=
          ih (Nat.div_pos (Nat.le_of_dvd positive divides) (by omega)) (by omega : n / factor < fuel)
        refine ⟨rest, run, some_, inside.trans (Nat.div_dvd_of_dvd divides), free, fun q prime member => ?_⟩
        rw [← Nat.mul_div_cancel' divides] at member
        exact (prime.dvd_mul.mp member).elim .inl fun later => all q prime later
      next free => exact ⟨n, rfl, positive, dvd_rfl, fun divides => free (Nat.mod_eq_zero_of_dvd divides), fun q _ => .inr⟩

/- What remains has no prime factor below the next one tried, and what was divided out is in the list. -/
theorem primeFactorsLoopExact {factors : List ℕ} (positive : 0 < n) (small : n < 2 ^ 32) (wide : 2 ≤ factor) (narrow : factor < 2 ^ 17)
    (some_ : 0 < fuel) (enough : n + 2 ≤ fuel + factor) (above : ∀ q, q.Prime → q ∣ n → factor ≤ q) :
    ∃ found, primeFactorsLoop fuel n factor factors = .ok found ∧ ∀ q, q ∈ found ↔ q ∈ factors ∨ (q.Prime ∧ q ∣ n) := by
  induction fuel generalizing n factor factors with
  | zero => omega
  | succ fuel ih =>
      unfold primeFactorsLoop
      rw [squareFits narrow]
      change ∃ found, (if factor * factor ≤ n then _ else _) = _ ∧ _
      split
      next within =>
        have root := rootSmall small within
        have least : factor ≤ n := (Nat.le_mul_self factor).trans within
        split
        next free =>
          refine ih positive small (by omega) (by omega) (by omega) (by omega) fun q prime divides => ?_
          rcases (above q prime divides).lt_or_eq with later | rfl
          · exact later
          · exact absurd (Nat.mod_eq_zero_of_dvd divides) free
        next zero =>
          have divides := Nat.dvd_of_mod_eq_zero (not_not.mp zero)
          have prime : factor.Prime := by
            have first := above factor.minFac (Nat.minFac_prime (by omega)) ((Nat.minFac_dvd factor).trans divides)
            have same := le_antisymm (Nat.minFac_le (by omega)) first
            exact same ▸ Nat.minFac_prime (by omega : factor ≠ 1)
          obtain ⟨rest, run, left, inside, gone, all⟩ := divideOutExact positive wide (Nat.lt_succ_self n)
          rw [run]
          have smaller := Nat.le_of_dvd positive inside
          obtain ⟨found, done, members⟩ := @ih rest (factor + 1) (factors ++ [factor]) left (by omega) (by omega) (by omega) (by omega)
            (by omega) fun q prime_ member => by
              rcases (above q prime_ (member.trans inside)).lt_or_eq with later | rfl
              · exact later
              · exact absurd member gone
          refine ⟨found, done, fun q => ?_⟩
          rw [members q, List.mem_append, List.mem_singleton, or_assoc]
          refine or_congr_right ⟨?_, ?_⟩
          · rintro (rfl | ⟨prime_, member⟩)
            · exact ⟨prime, divides⟩
            · exact ⟨prime_, member.trans inside⟩
          · rintro ⟨prime_, member⟩
            exact (all q prime_ member).imp (fun same => (Nat.prime_dvd_prime_iff_eq prime_ prime).mp same) fun later => ⟨prime_, later⟩
      next beyond =>
        split
        next several =>
          have prime : n.Prime := by
            by_contra composite
            have first := above n.minFac (Nat.minFac_prime (by omega)) (Nat.minFac_dvd n)
            have squares := Nat.minFac_sq_le_self positive composite
            rw [Nat.pow_two] at squares
            exact beyond ((Nat.mul_le_mul first first).trans squares)
          refine ⟨_, rfl, fun q => ?_⟩
          rw [List.mem_append, List.mem_singleton]
          refine or_congr_right ⟨?_, fun both => (Nat.prime_dvd_prime_iff_eq both.1 prime).mp both.2⟩
          rintro rfl
          exact ⟨prime, dvd_rfl⟩
        next few =>
          obtain rfl : n = 1 := by omega
          refine ⟨_, rfl, fun q => (or_iff_left ?_).symm⟩
          rintro ⟨prime, divides⟩
          exact prime.one_lt.ne' (Nat.dvd_one.mp divides)

theorem primeFactorsExact (positive : 0 < n) (small : n < 2 ^ 32) :
    ∃ found, primeFactorsUnique n = .ok found ∧ ∀ q, q ∈ found ↔ q.Prime ∧ q ∣ n := by
  obtain ⟨found, run, members⟩ := @primeFactorsLoopExact (n + 1) n 2 [] positive small (by decide) (by decide) (by omega) (by omega)
    fun q prime _ => prime.two_le
  exact ⟨found, run, fun q => (members q).trans (by simp)⟩

/- No odd number below the divisor divides an odd length. -/
theorem primeLoopExact (small : n < 2 ^ 32) (odd : n % 2 = 1) (several : 2 ≤ n) (wide : 3 ≤ divisor) (odds : divisor % 2 = 1)
    (narrow : divisor < 2 ^ 17) (some_ : 0 < fuel) (enough : n + 2 ≤ fuel + divisor)
    (above : ∀ q, q.Prime → q ∣ n → divisor ≤ q) : primeLoop fuel n divisor = .ok (decide n.Prime) := by
  induction fuel generalizing divisor with
  | zero => omega
  | succ fuel ih =>
      unfold primeLoop
      rw [squareFits narrow]
      change (if divisor * divisor ≤ n then _ else _) = _
      split
      next within =>
        have root := rootSmall small within
        have least : divisor ≤ n := (Nat.le_mul_self divisor).trans within
        split
        next zero =>
          have divides := Nat.dvd_of_mod_eq_zero zero
          have composite : ¬ n.Prime := by
            intro prime
            rcases (Nat.dvd_prime prime).mp divides with one | same
            · omega
            · have longer := Nat.mul_le_mul_right divisor wide
              omega
          rw [decide_eq_false composite]
        next free =>
          refine ih (by omega) (by omega) (by omega) (by omega) (by omega) fun q prime divides => ?_
          have odd_ : q % 2 = 1 := by
            rcases prime.eq_two_or_odd with rfl | odd_
            · have := Nat.mod_eq_zero_of_dvd divides
              omega
            · exact odd_
          rcases (above q prime divides).lt_or_eq with later | rfl
          · omega
          · exact absurd (Nat.mod_eq_zero_of_dvd divides) free
      next beyond =>
        have prime : n.Prime := by
          by_contra composite
          have first := above n.minFac (Nat.minFac_prime (by omega)) (Nat.minFac_dvd n)
          have squares := Nat.minFac_sq_le_self (by omega) composite
          rw [Nat.pow_two] at squares
          exact beyond ((Nat.mul_le_mul first first).trans squares)
        rw [decide_eq_true prime]

theorem isPrimeLengthExact (small : n < 2 ^ 32) : isPrimeLength n = .ok (decide n.Prime) := by
  unfold isPrimeLength
  split
  next few =>
    have composite : ¬ n.Prime := fun prime => by
      have := prime.two_le
      omega
    rw [decide_eq_false composite]
  next several =>
    split
    next even =>
      have two : n.Prime ↔ n = 2 := by
        constructor
        · intro prime
          exact prime.eq_two_or_odd.resolve_right (by omega)
        · rintro rfl
          exact Nat.prime_two
      simp only [two]
    next odd =>
      refine primeLoopExact small (by omega) (by omega) le_rfl rfl (by decide) (by omega) (by omega) fun q prime divides => ?_
      have least := prime.two_le
      rcases prime.eq_two_or_odd with rfl | odd_
      · have := Nat.mod_eq_zero_of_dvd divides
        omega
      · omega

end Factors

section Roots
variable {p root : ℕ}

theorem isPrimitiveExact (square : (p - 1) ^ 2 < 2 ^ 63) (several : 1 < p) (factors : List ℕ) :
    isPrimitive p root factors = .ok (decide (∀ q ∈ factors, root ^ ((p - 1) / q) % p ≠ 1)) := by
  induction factors with
  | nil => rfl
  | cons q rest ih =>
      unfold isPrimitive
      rw [modpowExact square several, ih]
      change (if root ^ ((p - 1) / q) % p = 1 then _ else _) = _
      by_cases one : root ^ ((p - 1) / q) % p = 1
      · simp [one]
      · simp [one]

/- The first root that passes the test. -/
theorem rootLoopExact {factors : List ℕ} {good : ℕ → Prop} {fuel : ℕ}
    (test : ∀ h, root ≤ h → h < p → ∃ passed, isPrimitive p h factors = .ok passed ∧ (passed = true ↔ good h))
    (exists_ : ∃ g, root ≤ g ∧ g < p ∧ good g) (enough : p ≤ fuel + root) :
    ∃ g, rootLoop p factors fuel root = .ok g ∧ root ≤ g ∧ g < p ∧ good g ∧ ∀ h, root ≤ h → h < g → ¬ good h := by
  obtain ⟨g, lower, less, right⟩ := exists_
  induction fuel generalizing root with
  | zero => omega
  | succ fuel ih =>
      unfold rootLoop
      rw [if_pos (by omega : root < p)]
      obtain ⟨passed, run, same⟩ := test root le_rfl (by omega)
      rw [run]
      cases passed with
      | true => exact ⟨root, rfl, le_rfl, by omega, same.mp rfl, fun h first last => absurd first (by omega)⟩
      | false =>
          have wrong : ¬ good root := fun ok => Bool.false_ne_true (same.mpr ok)
          have later : root + 1 ≤ g := by
            rcases lower.lt_or_eq with more | rfl
            · exact more
            · exact absurd right wrong
          obtain ⟨found, done, first, upper, ok, least⟩ := ih (fun h above => test h (by omega)) (by omega) later
          refine ⟨found, done, by omega, upper, ok, fun h start last => ?_⟩
          rcases start.lt_or_eq with more | rfl
          · exact least h more last
          · exact wrong

/- The powers from one value on. -/
theorem indexLoopExact (square : (p - 1) ^ 2 < 2 ^ 63) (rootSmall : root < p) {count value : ℕ} (valueSmall : value < p) :
    indexLoop p root count value = .ok ((List.range count).map fun i => value * root ^ i % p) := by
  induction count generalizing value with
  | zero => rfl
  | succ count ih =>
      unfold indexLoop
      rw [mulExact (residuesFit square valueSmall rootSmall)]
      change (indexLoop p root count (value * root % p)).bind _ = _
      rw [ih (Nat.mod_lt _ (by omega)), List.range_succ_eq_map, List.map_cons, List.map_map, pow_zero, Nat.mul_one,
        Nat.mod_eq_of_lt valueSmall]
      refine congrArg (fun rest => Except.ok (value :: rest)) (List.map_congr_left fun i _ => ?_)
      rw [Function.comp_apply, pow_succ', ← Nat.mul_assoc, Nat.mod_mul_mod]

theorem lengthSmall (square : (p - 1) ^ 2 < 2 ^ 63) : p < 2 ^ 32 := by
  by_contra large
  have squares := Nat.pow_le_pow_left (by omega : 2 ^ 32 - 1 ≤ p - 1) 2
  exact absurd (squares.trans_lt square) (by decide)

variable [prime : Fact p.Prime]

/- One generates nothing else, so where there are more numbers the search from two on misses no generator. -/
theorem rootFound (square : (p - 1) ^ 2 < 2 ^ 63) (odd : p ≠ 2) :
    ∃ g, findPrimitiveRoot p = .ok g ∧ 2 ≤ g ∧ g < p ∧ IsGenerator p g ∧ ∀ h, 2 ≤ h → h < g → ¬ IsGenerator p h := by
  have several := prime.out.two_le
  have small := lengthSmall square
  obtain ⟨factors, run, members⟩ := primeFactorsExact (by omega : 0 < p - 1) (by omega)
  obtain ⟨g, positive, less, generates⟩ := @generatorExists p _
  have proper : 2 ≤ g := by
    by_contra few
    obtain rfl : g = 1 := by omega
    obtain ⟨i, same⟩ := generates 2 (by omega) (by omega)
    rw [one_pow, Nat.mod_eq_of_lt (by omega)] at same
    omega
  have test : ∀ h, 2 ≤ h → h < p → ∃ passed, isPrimitive p h factors = .ok passed ∧ (passed = true ↔ IsGenerator p h) := by
    intro h wide below
    refine ⟨_, isPrimitiveExact square (by omega) factors, ?_⟩
    simp only [decide_eq_true_eq, generatorIff (by omega : 0 < h) below, members, and_imp]
  obtain ⟨found, done, rest⟩ := rootLoopExact test ⟨g, proper, less, generates⟩ (by omega : p ≤ p + 2)
  refine ⟨found, ?_, rest⟩
  unfold findPrimitiveRoot
  rw [isPrimeLengthExact small, decide_eq_true prime.out, run]
  simp only [Bind.bind, Except.bind, Bool.true_eq_false, if_false, odd, done]

theorem indexTableExact {g : ℕ} (square : (p - 1) ^ 2 < 2 ^ 63) (less : g < p) :
    buildRaderIndexTable p g = .ok (powerTable p g) := by
  have several := prime.out.two_le
  rw [buildRaderIndexTable, if_neg (by omega), indexLoopExact square less (by omega)]
  simp only [powerTable, Nat.one_mul]

end Roots

section Planner
variable {p : ℕ}

theorem plannerPrime (n : ℕ) : Plan.isPrimeLength n = decide n.Prime := by
  unfold Plan.isPrimeLength
  refine decide_eq_decide.mpr ?_
  rw [Nat.prime_def_lt']
  refine and_congr_right fun several => ⟨fun all m wide less divides => ?_, fun all m less wide zero => ?_⟩
  · exact all m less wide (Nat.mod_eq_zero_of_dvd divides)
  · exact all m wide less (Nat.dvd_of_mod_eq_zero zero)

theorem plannerFactors {n q : ℕ} (positive : 0 < n) : q ∈ Plan.primeFactorsUnique n ↔ q.Prime ∧ q ∣ n := by
  simp only [Plan.primeFactorsUnique, List.mem_filter, List.mem_range'_1, plannerPrime, Bool.and_eq_true, decide_eq_true_eq,
    beq_iff_eq, Nat.dvd_iff_mod_eq_zero]
  refine ⟨fun both => both.2, fun both => ⟨?_, both⟩⟩
  have least := both.1.two_le
  have most := Nat.le_of_dvd positive (Nat.dvd_of_mod_eq_zero both.2)
  omega

/- The search as the planner's model states it finds the same root. -/
theorem plannerRoot (prime : p.Prime) (square : (p - 1) ^ 2 < 2 ^ 63) {g : ℕ} (found : findPrimitiveRoot p = .ok g) :
    Plan.findPrimitiveRoot p = .ok g := by
  have : Fact p.Prime := ⟨prime⟩
  have several := prime.two_le
  unfold Plan.findPrimitiveRoot
  rw [plannerPrime, decide_eq_true prime, if_neg (by decide)]
  by_cases two : p = 2
  · subst two
    cases found
    rfl
  · obtain ⟨g', run, wide, less, generates, least⟩ := rootFound square two
    obtain rfl : g = g' := by rw [run] at found; exact (Except.ok.inj found).symm
    have test : ∀ h, 2 ≤ h → h < p →
        (((Plan.primeFactorsUnique (p - 1)).all fun factor => h ^ ((p - 1) / factor) % p ≠ 1) = true ↔ IsGenerator p h) := by
      intro h lower upper
      simp only [List.all_eq_true, decide_eq_true_eq, plannerFactors (by omega : 0 < p - 1), and_imp, generatorIff (by omega : 0 < h) upper]
    rw [if_neg two, List.find?_range'_eq_some.mpr ⟨(test g wide less).mpr generates, List.mem_range'_1.mpr (by omega), ?_⟩]
    intro h lower before
    have wrong := least h lower before
    rw [← test h lower (by omega)] at wrong
    simpa using wrong

end Planner

theorem raderNumbersExact : ∀ p, p.Prime → (p - 1) ^ 2 < 2 ^ 63 →
    ∃ g idx, findPrimitiveRoot p = .ok g ∧ IsGenerator p g ∧
      (if p = 2 then g = 1 else 2 ≤ g ∧ ∀ h, 2 ≤ h → h < g → ¬ IsGenerator p h) ∧
      buildRaderIndexTable p g = .ok idx ∧ idx.Perm (List.range' 1 (p - 1)) ∧ (∀ i < p - 1, idx[i]? = some (g ^ i % p)) ∧
      ∀ i < p - 1, idx.getD ((p - 1 - i) % (p - 1)) 0 * idx.getD i 0 % p = 1 := by
  intro p prime square
  have : Fact p.Prime := ⟨prime⟩
  obtain ⟨g, root, positive, less, generates, least⟩ : ∃ g, findPrimitiveRoot p = .ok g ∧ 0 < g ∧ g < p ∧ IsGenerator p g ∧
      (if p = 2 then g = 1 else 2 ≤ g ∧ ∀ h, 2 ≤ h → h < g → ¬ IsGenerator p h) := by
    by_cases two : p = 2
    · subst two
      refine ⟨1, rfl, Nat.one_pos, Nat.one_lt_two, fun x lower upper => ⟨0, ?_⟩, rfl⟩
      omega
    · obtain ⟨g, root, wide, less, generates, least⟩ := rootFound square two
      exact ⟨g, root, by omega, less, generates, by rw [if_neg two]; exact ⟨wide, least⟩⟩
  refine ⟨g, powerTable p g, root, generates, least, indexTableExact square less, ?_, fun i inside => ?_, fun i inside => ?_⟩
  · exact powerTablePerm positive less ((generatorIffOrder positive less).mp generates)
  · simp [powerTable, inside]
  · exact powerTableInverse positive less inside

/- For 41 the least generator is 6. -/
theorem raderNumbersFortyOne : ∃ g idx, findPrimitiveRoot 41 = .ok g ∧ IsGenerator 41 g ∧
    (if 41 = 2 then g = 1 else 2 ≤ g ∧ ∀ h, 2 ≤ h → h < g → ¬ IsGenerator 41 h) ∧
    buildRaderIndexTable 41 g = .ok idx ∧ idx.Perm (List.range' 1 (41 - 1)) ∧ (∀ i < 41 - 1, idx[i]? = some (g ^ i % 41)) ∧
    ∀ i < 41 - 1, idx.getD ((41 - 1 - i) % (41 - 1)) 0 * idx.getD i 0 % 41 = 1 :=
  raderNumbersExact 41 (by decide) (by decide)

end FlagFft.Plan.RaderUtils
