import FlagFft.Plan.LeafFactors
import Mathlib.Data.List.Destutter

/-! The factorizations of a length as a builder remembers them, and both ways in which it takes lengths apart. -/
namespace FlagFft.Plan
open Library.Fuel

/- factorization_cache_ -/
abbrev FactorizationCache : Type := ℕ → Option (List (List ℕ))

/- std::unique -/
def unique {α : Type} [DecidableEq α] (l : List α) : List α := l.destutter (· ≠ ·)

/- The factorizations that begin with one radix, behind those found so far. -/
def PlanBuilder.beginWith (enumerate : ℕ → Program String FactorizationCache (List (List ℕ))) (n : ℕ)
    (result : List (List ℕ)) (radix : ℕ) : Program String FactorizationCache (List (List ℕ)) :=
  if n % radix ≠ 0 then pure result
  else if n = radix then pure (result ++ [[radix]])
  else do
    let tails ← enumerate (n / radix)
    pure (result ++ tails.map (radix :: ·))

def PlanBuilder.enumerateSupportedFactorizations : (fuel : ℕ) → ℕ → Program String FactorizationCache (List (List ℕ))
  | 0, _ => Program.outOfFuel
  | fuel + 1, n => do
    match (← Program.get) n with
    | some known => pure known
    | none =>
      let result ← kSupportedRadices.foldlM (beginWith (enumerateSupportedFactorizations fuel) n) []
      let result := unique (result.mergeSort (· ≤ ·))
      Program.modify fun cache => Function.update cache n (some result)
      pure result

/- The caches a builder can come to have. Only positive lengths are taken apart. -/
inductive ReachedCache : FactorizationCache → Prop where
  | fresh : ReachedCache fun _ => none
  | call {cache cache' : FactorizationCache} {fuel n : ℕ} {outcome : Except String (List (List ℕ))} (before : ReachedCache cache)
      (positive : 0 < n) (run : PlanBuilder.enumerateSupportedFactorizations fuel n cache = some (outcome, cache')) :
      ReachedCache cache'

section Lists
variable {α : Type} [LinearOrder α] {l : List α}

theorem memUnique {a : α} : a ∈ unique l ↔ a ∈ l := by
  have behind : ∀ (l : List α) (first : α), a ∈ l.destutter' (· ≠ ·) first ↔ a = first ∨ a ∈ l := by
    intro l
    induction l with
    | nil => simp
    | cons head rest ih =>
        intro first
        by_cases other : first ≠ head
        · rw [List.destutter'_cons_pos _ other, List.mem_cons, ih, List.mem_cons]
        · rw [List.destutter'_cons_neg _ other, ih, List.mem_cons, not_not.mp other]
          simp
  cases l with
  | nil => simp [unique]
  | cons first rest => rw [unique, List.destutter_cons', behind, List.mem_cons]

/- After sorting, equal elements are neighbours. -/
theorem strictChain (sorted : l.Pairwise (· ≤ ·)) (apart : l.IsChain (· ≠ ·)) : l.IsChain (· < ·) := by
  induction l with
  | nil => exact List.IsChain.nil
  | cons first rest ih =>
      cases rest with
      | nil => exact List.IsChain.singleton first
      | cons second later =>
          obtain ⟨least, ordered⟩ := List.pairwise_cons.mp sorted
          obtain ⟨other, chain⟩ := List.isChain_cons_cons.mp apart
          exact List.isChain_cons_cons.mpr ⟨lt_of_le_of_ne (least second List.mem_cons_self) other, ih ordered chain⟩

theorem uniqueSorted (sorted : l.Pairwise (· ≤ ·)) : (unique l).Pairwise (· < ·) :=
  List.isChain_iff_pairwise.mp (strictChain (sorted.sublist (List.destutter_sublist _ l)) (List.isChain_destutter _ l))

theorem dedupSorted : (l.dedup.mergeSort (· ≤ ·)).Pairwise (· < ·) := by
  have sorted : (l.dedup.mergeSort (· ≤ ·)).Pairwise (· ≤ ·) := List.pairwise_mergeSort' (· ≤ ·) _
  have distinct : (l.dedup.mergeSort (· ≤ ·)).Nodup := (List.mergeSort_perm _ _).nodup_iff.mpr (List.nodup_dedup l)
  exact (sorted.and distinct).imp fun both => lt_of_le_of_ne both.1 both.2

/- Sorting before the repetitions go or after them. -/
theorem uniqueMergeSort : unique (l.mergeSort (· ≤ ·)) = l.dedup.mergeSort (· ≤ ·) :=
  (uniqueSorted (List.pairwise_mergeSort' (· ≤ ·) l)).eq_of_mem_iff dedupSorted fun a => by
    rw [memUnique, List.mem_mergeSort, List.mem_mergeSort, List.mem_dedup]

end Lists

section Enumeration
variable {fuel n radix : ℕ} {factors : List ℕ}

theorem radixWide : ∀ radix ∈ kSupportedRadices, 2 ≤ radix := by decide

theorem quotientPositive (positive : 0 < n) (wide : 2 ≤ radix) (divides : n % radix = 0) : 0 < n / radix ∧ n / radix < n :=
  ⟨Nat.div_pos (Nat.le_of_dvd positive (Nat.dvd_of_mod_eq_zero divides)) (by omega), Nat.div_lt_self positive wide⟩

theorem enumerationSorted (fuel n : ℕ) : (enumerateFactorizations fuel n).Pairwise (· < ·) := by
  cases fuel with
  | zero => exact List.Pairwise.nil
  | succ fuel =>
      rw [enumerateFactorizations]
      convert @dedupSorted (List ℕ) _ _

/- Every ordered list of radices with this product, and nothing else: by the first radix of the list. -/
theorem memEnumeration (several : 2 ≤ n) (enough : n ≤ fuel) :
    factors ∈ enumerateFactorizations fuel n ↔ (∀ factor ∈ factors, factor ∈ kSupportedRadices) ∧ factors.prod = n := by
  induction fuel generalizing n factors with
  | zero => omega
  | succ fuel ih =>
      simp only [enumerateFactorizations, List.mem_mergeSort, List.mem_dedup, List.mem_flatMap]
      constructor
      · rintro ⟨radix, member, inside⟩
        split_ifs at inside with divides same
        · simp at inside
        · rw [List.mem_singleton] at inside
          subst inside
          simp [member, same]
        · obtain ⟨tail, found, rfl⟩ := List.mem_map.mp inside
          have wide := radixWide radix member
          have whole : radix * (n / radix) = n := Nat.mul_div_cancel' (Nat.dvd_of_mod_eq_zero (not_not.mp divides))
          obtain ⟨positive, less⟩ := quotientPositive (by omega) wide (not_not.mp divides)
          have proper : 2 ≤ n / radix := by
            by_contra few
            have one : n / radix = 1 := le_antisymm (by omega) positive
            exact same (by rw [← whole, one, Nat.mul_one])
          obtain ⟨all, product⟩ := (ih proper (by omega)).mp found
          refine ⟨?_, by rw [List.prod_cons, product, whole]⟩
          simpa [member] using all
      · rintro ⟨all, product⟩
        cases factors with
        | nil => simp at product; omega
        | cons radix tail =>
            obtain ⟨member, all⟩ := List.forall_mem_cons.mp all
            have wide := radixWide radix member
            rw [List.prod_cons] at product
            refine ⟨radix, member, ?_⟩
            have divides : n % radix = 0 := by rw [← product, Nat.mul_mod_right]
            have rest : n / radix = tail.prod := by rw [← product, Nat.mul_div_cancel_left _ (by omega)]
            rw [if_neg (not_not.mpr divides)]
            by_cases same : n = radix
            · rw [if_pos same, List.mem_singleton, List.cons.injEq]
              refine ⟨rfl, ?_⟩
              have one : tail.prod = 1 := by rw [← rest, same, Nat.div_self (by omega)]
              cases tail with
              | nil => rfl
              | cons next later =>
                  have divides_ : next ∣ 1 := one ▸ List.dvd_prod List.mem_cons_self
                  have := radixWide next (all next List.mem_cons_self)
                  have := Nat.le_of_dvd one_pos divides_
                  omega
            · rw [if_neg same]
              obtain ⟨positive, less⟩ := quotientPositive (by omega) wide divides
              have proper : 2 ≤ n / radix := by
                by_contra few
                have one : n / radix = 1 := le_antisymm (by omega) positive
                exact same (by rw [← Nat.mul_div_cancel' (Nat.dvd_of_mod_eq_zero divides), one, Nat.mul_one])
              exact List.mem_map_of_mem ((ih proper (by omega)).mpr ⟨all, rest.symm⟩)

theorem nothingForOne (fuel : ℕ) : enumerateFactorizations fuel 1 = [] := by
  cases fuel with
  | zero => rfl
  | succ fuel =>
      have none_ : ∀ radix ∈ kSupportedRadices, 1 % radix ≠ 0 := by decide
      rw [enumerateFactorizations, List.flatMap_eq_nil_iff.mpr fun radix member => if_pos (none_ radix member), List.dedup_nil,
        List.mergeSort_nil]

/- More steps than the length find nothing else. -/
theorem enumerationEnough (positive : 0 < n) (enough : n ≤ fuel) :
    enumerateFactorizations fuel n = enumerateSupportedFactorizations n := by
  rcases Nat.lt_or_ge 1 n with several | one
  · refine (enumerationSorted fuel n).eq_of_mem_iff (enumerationSorted n n) fun factors => ?_
    exact (memEnumeration several enough).trans (memEnumeration several le_rfl).symm
  · obtain rfl : n = 1 := by omega
    rw [nothingForOne, enumerateSupportedFactorizations, nothingForOne]

/- The factorizations that begin with one radix. -/
def beginningWith (n radix : ℕ) : List (List ℕ) :=
  if n % radix ≠ 0 then []
  else if n = radix then [[radix]]
  else (enumerateSupportedFactorizations (n / radix)).map (radix :: ·)

theorem enumerationStep (positive : 0 < n) :
    enumerateSupportedFactorizations n = unique ((kSupportedRadices.flatMap (beginningWith n)).mergeSort (· ≤ ·)) := by
  obtain ⟨fuel, rfl⟩ := Nat.exists_eq_succ_of_ne_zero positive.ne'
  rw [enumerateSupportedFactorizations, enumerateFactorizations]
  have same : (kSupportedRadices.flatMap fun radix =>
      if (fuel + 1) % radix ≠ 0 then []
      else if fuel + 1 = radix then [[radix]]
      else (enumerateFactorizations fuel ((fuel + 1) / radix)).map (radix :: ·)) =
      kSupportedRadices.flatMap (beginningWith (fuel + 1)) := by
    refine List.flatMap_congr fun radix member => ?_
    unfold beginningWith
    split_ifs with divides
    · rfl
    · rfl
    · obtain ⟨some_, less⟩ := quotientPositive positive (radixWide radix member) (not_not.mp divides)
      rw [enumerationEnough some_ (by omega)]
  rw [same]
  convert (@uniqueMergeSort (List ℕ) _ _).symm

end Enumeration

section Memory
variable {fuel n : ℕ}

/- Every entry is what would be found again. -/
def Remembered (cache : FactorizationCache) : Prop :=
  ∀ n > 0, ∀ known, cache n = some known → known = enumerateSupportedFactorizations n

/- One length, with the cache before and after: by the radices it begins with. -/
theorem enumerateSound (positive : 0 < n) :
    Sound Remembered (PlanBuilder.enumerateSupportedFactorizations fuel n) (· = enumerateSupportedFactorizations n) := by
  induction fuel generalizing n with
  | zero => exact soundOutOfFuel
  | succ fuel ih =>
      refine soundBind soundGet fun cache remembered => ?_
      cases here : cache n with
      | some known => exact soundPure (remembered n positive known here)
      | none =>
          have all := @soundLoop _ _ _ _ Remembered (PlanBuilder.beginWith (PlanBuilder.enumerateSupportedFactorizations fuel) n)
            kSupportedRadices (fun done result => result = done.flatMap (beginningWith n)) ?_ [] [] rfl
          · refine soundBind all fun result found => ?_
            have sorted : unique (result.mergeSort (· ≤ ·)) = enumerateSupportedFactorizations n := by
              rw [enumerationStep positive, found, List.nil_append]
            dsimp only
            rw [sorted]
            refine soundBind (soundModify fun cache remembered m some_ known entry => ?_) fun _ _ => soundPure rfl
            by_cases same : m = n
            · subst same
              simpa using entry.symm
            · rw [Function.update_of_ne same] at entry
              exact remembered m some_ known entry
          · intro done radix result member before
            unfold PlanBuilder.beginWith
            subst before
            have behind : ∀ found, done.flatMap (beginningWith n) ++ found = (done ++ [radix]).flatMap (beginningWith n) ↔
                found = beginningWith n radix := by
              intro found
              rw [List.flatMap_append, List.append_cancel_left_eq, List.flatMap_singleton]
            split_ifs with divides same
            · refine soundPure ?_
              have nothing := (behind []).mpr (by rw [beginningWith, if_pos divides])
              simpa only [List.append_nil] using nothing
            · refine soundPure ((behind _).mpr ?_)
              rw [beginningWith, if_neg divides, if_pos same]
            · obtain ⟨some_, _⟩ := quotientPositive positive (radixWide radix member) (not_not.mp divides)
              refine soundBind (ih some_) fun tails found => soundPure ((behind _).mpr ?_)
              rw [found, beginningWith, if_neg divides, if_neg same]

theorem enumerateSucceeds (positive : 0 < n) (enough : n ≤ fuel) :
    Succeeds (PlanBuilder.enumerateSupportedFactorizations fuel n) fun _ => True := by
  induction fuel generalizing n with
  | zero => omega
  | succ fuel ih =>
      refine succeedsBind succeedsGet fun cache _ => ?_
      cases cache n with
      | some known => exact succeedsPure trivial
      | none =>
          refine succeedsBind (@succeedsLoop _ _ _ _ _ _ (fun _ => True) (fun radix member result _ => ?_) _ trivial) fun _ _ =>
            succeedsBind succeedsModify fun _ _ => succeedsPure trivial
          unfold PlanBuilder.beginWith
          split_ifs with divides same
          · exact succeedsPure trivial
          · exact succeedsPure trivial
          · obtain ⟨some_, less⟩ := quotientPositive positive (radixWide radix member) (not_not.mp divides)
            exact succeedsBind (ih some_ (by omega)) fun _ _ => succeedsPure trivial

theorem enumerateGrows (fuel n : ℕ) : Below (PlanBuilder.enumerateSupportedFactorizations fuel n)
    (PlanBuilder.enumerateSupportedFactorizations (fuel + 1) n) := by
  induction fuel generalizing n with
  | zero => exact belowOutOfFuel _
  | succ fuel ih =>
      refine belowBind (belowSame _) fun cache => ?_
      cases cache n with
      | some known => exact belowSame _
      | none =>
          refine belowBind (belowLoop (fun result radix => ?_) _) fun _ => belowSame _
          unfold PlanBuilder.beginWith
          split_ifs
          · exact belowSame _
          · exact belowSame _
          · exact belowBind (ih _) fun _ => belowSame _

/- Whatever was asked before. -/
theorem reachedRemembered {cache : FactorizationCache} (reached : ReachedCache cache) : Remembered cache := by
  induction reached with
  | fresh => exact fun n _ known here => nomatch here
  | call before positive run ih => exact (enumerateSound positive _ _ _ ih run).1

theorem enumerateReturns {cache : FactorizationCache} (reached : ReachedCache cache) (positive : 0 < n) :
    ∃ cache', ∀ fuel ≥ n, PlanBuilder.enumerateSupportedFactorizations fuel n cache =
      some (.ok (enumerateSupportedFactorizations n), cache') := by
  obtain ⟨found, cache', run, _⟩ := enumerateSucceeds positive le_rfl cache
  obtain ⟨_, same⟩ := enumerateSound positive cache _ cache' (reachedRemembered reached) run
  rw [same found rfl] at run
  exact ⟨cache', fun fuel more => belowLater (fun fuel => enumerateGrows fuel n) more cache _ run⟩

end Memory

section Factorization
variable {fuel n rem : ℕ} {factors : List ℕ}

/- Where the loop stops, no radix divides what is left. -/
theorem factorStops (positive : 0 < rem) (enough : rem ≤ fuel) :
    ∀ radix ∈ kSupportedRadices, ¬ radix ∣ (factorLoop fuel rem factors).remainder := by
  induction fuel generalizing rem factors with
  | zero => omega
  | succ fuel ih =>
      unfold factorLoop
      split
      next more =>
        split
        next radix found =>
          obtain ⟨two, divides⟩ := radixFound found
          have less : rem / radix < rem := Nat.div_lt_self positive two
          exact ih (Nat.div_pos (Nat.le_of_dvd positive divides) (by omega)) (by omega)
        next missing =>
          intro radix member divides
          have here := List.find?_eq_none.mp missing radix member
          simp [Nat.mod_eq_zero_of_dvd divides] at here
      next few =>
        intro radix member divides
        have wide := radixWide radix member
        have small := Nat.le_of_dvd positive divides
        change radix ≤ rem at small
        omega

/- The primes among the radices. -/
theorem radixPrimes : ∀ p, p.Prime → (p ∈ kSupportedRadices ↔ p ≤ 19) := by
  have small : ∀ p < 33, p.Prime → (p ∈ kSupportedRadices ↔ p ≤ 19) := by decide
  intro p prime
  rcases Nat.lt_or_ge p 33 with less | more
  · exact small p less prime
  · have bounds : ∀ radix ∈ kSupportedRadices, radix < 33 := by decide
    exact iff_of_false (fun member => by have := bounds p member; omega) (by omega)

theorem remainderPrimes (positive : 0 < n) {p : ℕ} (prime : p.Prime) (divides : p ∣ (factorizeSupportedRadices n).remainder) :
    19 < p := by
  by_contra small
  exact factorStops positive le_rfl p ((radixPrimes p prime).mpr (by omega)) divides

theorem wholeProduct (n : ℕ) : (factorizeSupportedRadices n).factors.prod * (factorizeSupportedRadices n).remainder = n := by
  have product := @factorProduct n n []
  rwa [List.prod_nil, Nat.one_mul] at product

/- The prime factors of a product of radices. -/
theorem productPrimes (all : ∀ factor ∈ factors, factor ∈ kSupportedRadices) {p : ℕ} (prime : p.Prime) (divides : p ∣ factors.prod) :
    p ≤ 19 := by
  obtain ⟨radix, member, inside⟩ := (Prime.dvd_prod_iff prime.prime).mp divides
  have primes : ∀ radix ∈ kSupportedRadices, ∀ p ≤ radix, p.Prime → p ∣ radix → p ≤ 19 := by decide
  have wide := radixWide radix (all radix member)
  exact primes radix (all radix member) p (Nat.le_of_dvd (by omega) inside) prime inside

theorem remainderOne (positive : 0 < n) :
    (factorizeSupportedRadices n).remainder = 1 ↔ ∀ p, p.Prime → p ∣ n → p ≤ 19 := by
  constructor
  · intro one p prime divides
    have whole := wholeProduct n
    rw [one, Nat.mul_one] at whole
    exact productPrimes (factorMembers (by simp)) prime (whole.symm ▸ divides)
  · intro smooth
    by_contra other
    obtain ⟨p, prime, divides⟩ := Nat.exists_prime_and_dvd other
    have large := remainderPrimes positive prime divides
    have small := smooth p prime (divides.trans (Dvd.intro_left _ (wholeProduct n)))
    omega

/- One way of taking a length apart finds something just when the other one does. -/
theorem enumerationNonempty (several : 2 ≤ n) :
    enumerateSupportedFactorizations n ≠ [] ↔ (factorizeSupportedRadices n).remainder = 1 := by
  constructor
  · intro some_
    obtain ⟨factors, member⟩ := List.exists_mem_of_ne_nil _ some_
    obtain ⟨all, product⟩ := (memEnumeration several le_rfl).mp member
    exact (remainderOne (by omega)).mpr fun p prime divides => productPrimes all prime (product.symm ▸ divides)
  · intro one
    refine List.ne_nil_of_mem ((memEnumeration several le_rfl).mpr ⟨factorMembers (by simp), ?_⟩ :
      (factorizeSupportedRadices n).factors ∈ _)
    have whole := wholeProduct n
    rwa [one, Nat.mul_one] at whole

theorem lengthsTakenApart :
    (∀ n ≥ 1,
      (∀ factor ∈ (factorizeSupportedRadices n).factors, factor ∈ kSupportedRadices) ∧
        (factorizeSupportedRadices n).factors.prod * (factorizeSupportedRadices n).remainder = n ∧
        (∀ p, p.Prime → p ∣ (factorizeSupportedRadices n).remainder → 19 < p) ∧
        ((factorizeSupportedRadices n).remainder = 1 ↔ ∀ p, p.Prime → p ∣ n → p ≤ 19)) ∧
      ∀ cache, ReachedCache cache → ∀ n ≥ 2, ∃ result cache',
        (∀ fuel ≥ n, PlanBuilder.enumerateSupportedFactorizations fuel n cache = some (.ok result, cache')) ∧
          result.Pairwise (· < ·) ∧
          (∀ factors, factors ∈ result ↔ (∀ factor ∈ factors, factor ∈ kSupportedRadices) ∧ factors.prod = n) ∧
          (result ≠ [] ↔ (factorizeSupportedRadices n).remainder = 1) := by
  refine ⟨fun n positive => ?_, fun cache reached n several => ?_⟩
  · exact ⟨factorMembers (by simp), wholeProduct n, fun p prime => remainderPrimes positive prime, remainderOne positive⟩
  · obtain ⟨cache', returns⟩ := enumerateReturns reached (by omega : 0 < n)
    exact ⟨enumerateSupportedFactorizations n, cache', returns, enumerationSorted n n, fun factors => memEnumeration several le_rfl,
      enumerationNonempty several⟩

end Factorization

end FlagFft.Plan
