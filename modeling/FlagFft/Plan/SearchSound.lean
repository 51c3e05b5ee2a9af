import FlagFft.Plan.WellPlanned

/-! The search returns well-planned plans only. By induction on the levels of the recursion: a level asks the one below,
and what it makes of the answers is well planned whatever they cost. -/
namespace FlagFft.Plan
open Library.Fuel Library.Generators

section Numbers
variable {p g : ℕ}

theorem foundRoot (found : findPrimitiveRoot p = .ok g) :
    p.Prime ∧ 0 < g ∧ g < p ∧ orderOf (g : ZMod p) = p - 1 := by
  unfold findPrimitiveRoot at found
  rw [RaderUtils.plannerPrime] at found
  split_ifs at found with composite two
  · subst two
    cases found
    exact ⟨Nat.prime_two, Nat.one_pos, Nat.one_lt_two, by simp⟩
  · have prime : p.Prime := by simpa using composite
    have : Fact p.Prime := ⟨prime⟩
    have several := prime.two_le
    cases search : (List.range' 2 (p - 2)).find? fun root =>
        (primeFactorsUnique (p - 1)).all fun factor => root ^ ((p - 1) / factor) % p ≠ 1 with
    | none =>
        rw [search] at found
        cases found
    | some root =>
        rw [search] at found
        cases found
        have range := List.mem_range'_1.mp (List.mem_of_find?_eq_some search)
        have test := List.find?_some search
        simp only [List.all_eq_true, decide_eq_true_eq, RaderUtils.plannerFactors (by omega : 0 < p - 1), and_imp] at test
        have positive : 0 < g := by omega
        have less : g < p := by omega
        exact ⟨prime, positive, less, (generatorIffOrder positive less).mp ((generatorIff positive less).mpr test)⟩

theorem foundTable {idx : List ℕ} (found : buildRaderIndexTable p g = .ok idx) : idx = powerTable p g := by
  unfold buildRaderIndexTable at found
  split_ifs at found
  cases found
  rfl

end Numbers

/- What a level may rely on of the level below it. -/
structure SoundCallees (callees : Callees) : Prop where
  node : ∀ n allow, Sound Remembers (callees.node n allow) (WellPlanned n)
  cost : ∀ n, Sound Remembers (callees.cost n) fun _ => True

section Parts
variable {host : Host} {context : RequestContext} {callees : Callees} {n n1 n2 : ℕ} (below : SoundCallees callees)
include below

theorem fourStepNodeSound (product : n1 * n2 = n) (several : 1 < n1) (several' : 1 < n2) :
    Sound Remembers (fourStepNode callees n n1 n2) (WellPlanned n) :=
  soundBind (below.node n1 false) fun _ rows => soundBind (below.node n2 false) fun _ cols =>
    soundPure (.fourStep product several several' rows cols)

theorem fourStepCostSound : Sound Remembers (fourStepCost host context callees n1 n2) fun _ => True := by
  refine soundBind (below.cost n1) fun _ _ => soundBind (below.cost n2) fun _ _ => ?_
  split_ifs
  · exact soundBind selectSound fun _ _ => soundPure trivial
  · exact soundPure trivial

theorem lengthCostSound (c : ℕ) : Sound Remembers (lengthCost callees c) fun _ => True :=
  soundBind (below.cost c) fun _ _ => soundPure trivial

/- The better of two such lengths is one of them. -/
theorem compareLengthSound {candidate : ℕ} {best : ℕ × ℚ} {kind : ℕ → Prop} (old : kind best.1) (new : kind candidate) :
    Sound Remembers (compareLength callees best candidate) fun found => kind found.1 := by
  refine soundBind (lengthCostSound below candidate) fun cost _ => soundPure ?_
  split_ifs
  · exact new
  · exact old

def Between (least most c : ℕ) : Prop := least ≤ c ∧ c ≤ most

theorem compareSmoothSound {minimum power candidate : ℕ} {best : ℕ × ℚ} (old : Between minimum power best.1) (small : candidate ≤ power) :
    Sound Remembers (compareSmooth callees minimum best candidate) fun found => Between minimum power found.1 := by
  unfold compareSmooth
  split_ifs with short
  · exact soundPure old
  · exact compareLengthSound below old ⟨by omega, small⟩
  · exact soundPure old

theorem nextLengthSound (minimum : ℕ) : Sound Remembers (PlanBuilder.nextSupportedConvolutionLength host context callees minimum)
    (Between minimum (ceilPowerOfTwo minimum)) := by
  unfold PlanBuilder.nextSupportedConvolutionLength
  have power : Between minimum (ceilPowerOfTwo minimum) (ceilPowerOfTwo minimum) := ⟨leCeilPowerOfTwo minimum, le_rfl⟩
  split_ifs with few
  · exact soundPure ⟨few, Nat.one_le_two_pow⟩
  · refine soundBind (soundOfExcept fun _ _ => trivial) fun search (_ : True) => ?_
    cases search with
    | powerOnly => exact soundPure power
    | smooth =>
        refine soundBind (lengthCostSound below _) fun cost _ => ?_
        have small : ∀ c ∈ smoothCandidates (ceilPowerOfTwo minimum), c ≤ ceilPowerOfTwo minimum := fun c member =>
          ((smoothGenerates (Nat.two_pow_pos _) c).mp member).1
        have loop := @soundLoop _ _ _ _ Remembers (compareSmooth callees minimum) (smoothCandidates (ceilPowerOfTwo minimum))
          (fun _ found => Between minimum (ceilPowerOfTwo minimum) found.1)
          (fun _ candidate _ member kept => compareSmoothSound below kept (small candidate member)) [] (ceilPowerOfTwo minimum, cost) power
        exact soundBind loop fun found inside => soundPure inside
    | window =>
        have inside : ∀ c ∈ windowCandidates minimum (ceilPowerOfTwo minimum), Between minimum (ceilPowerOfTwo minimum) c := by
          intro c member
          rcases (memWindowCandidates (by omega)).mp member with ⟨_, lower, upper⟩ | rfl
          · exact ⟨lower, upper.trans (min_le_left _ _)⟩
          · exact power
        dsimp only
        split
        · exact soundPure power
        next first rest same =>
          rw [same] at inside
          refine soundBind (lengthCostSound below _) fun cost _ => ?_
          have loop := @soundLoop _ _ _ _ Remembers (compareLength callees) (first :: rest)
            (fun _ found => Between minimum (ceilPowerOfTwo minimum) found.1)
            (fun _ candidate _ member kept => compareLengthSound below kept (inside candidate member)) [] (first, cost)
            (inside first List.mem_cons_self)
          exact soundBind loop fun found kept => soundPure kept

theorem makeBluesteinSound (positive : 0 < n) :
    Sound Remembers (makeBluesteinPlan host context callees n) fun made => WellPlanned n made.1 ∧ made.2 ≤ 4 * n + 1 := by
  refine soundBind (nextLengthSound below _) fun found inside => ?_
  have conv : Between (2 * n - 1) (4 * n + 1) (if maca997Fp64 context n then 2048 else found) := by
    split_ifs with special
    · have : n = 997 := special.2.2.2.1
      exact ⟨by omega, by omega⟩
    · exact ⟨inside.1, inside.2.trans (bluesteinMinimum n)⟩
  dsimp only
  generalize (if maca997Fp64 context n then 2048 else found) = convLength at conv ⊢
  split_ifs with balanced
  · have length : convLength = 1048576 := balanced.2.2.2.1
    exact soundBind (fourStepNodeSound below (by omega) (by decide) (by decide)) fun fft ok =>
      soundPure ⟨.bluestein positive conv.1 conv.2 ok, conv.2⟩
  · exact soundBind (below.node convLength false) fun fft ok => soundPure ⟨.bluestein positive conv.1 conv.2 ok, conv.2⟩

theorem makeRaderSound : Sound Remembers (makeRaderPlan host context callees n) (WellPlanned n) := by
  refine soundBind (soundOfExcept fun _ same => same) fun root found => soundBind (soundOfExcept fun _ same => same) fun idx table => ?_
  obtain ⟨prime, positive, less, order⟩ := foundRoot found
  rw [foundTable table]
  by_cases tuned : tunedRaderSplit host context n
  · simp only [tuned, if_true]
    have split : (if n = 8191 then 90 else 91) * (if n = 8191 then 91 else 180) = n - 1 := by
      rcases tuned.2.2.2.1 with rfl | rfl <;> decide
    refine soundBind (fourStepNodeSound below split ?_ ?_) fun conv ok => soundPure (.rader prime positive less order ok)
    · split_ifs <;> decide
    · split_ifs <;> decide
  · simp only [tuned, if_false]
    exact soundBind (below.node (n - 1) false) fun conv ok => soundPure (.rader prime positive less order ok)

end Parts

section Npu
variable {host : Host} {context : RequestContext} {n : ℕ}

/- What a route may find. -/
def Found (n : ℕ) (found : Option (List (PlanCandidate ℚ))) : Prop := ∀ candidates, found = some candidates → Candidates n candidates

theorem foundSome {candidates : List (PlanCandidate ℚ)} (good : Candidates n candidates) : Found n (some candidates) := by
  intro found same
  cases same
  exact good

theorem foundNone : Found n none := fun _ same => nomatch same

theorem oneCandidate {node : PlanNode} {cost : ℚ} (planned : WellPlanned n node) : Candidates n [candidateOf node cost] := by
  intro candidate member
  rw [List.mem_singleton.mp member]
  exact planned

theorem leafCandidateSound {factors : List ℕ} (radices : RadixFactors n factors) :
    Sound Remembers (do let candidates ← leafCandidate context n factors; pure (some candidates) : NpuRoute) (Found n) := by
  have made : Sound Remembers (leafCandidate context n factors) (Candidates n) :=
    soundBind (soundOfExcept fun node made => makeLeafSound radices made) fun node planned => soundPure (oneCandidate planned)
  exact soundBind made fun candidates good => soundPure (foundSome good)

/- The radices of a text multiply to the product that is counted, whatever they are. -/
theorem radixTokensOk {tokens : List String} {factors : List ℕ} {product : ℕ} {result : List ℕ × ℕ}
    (wide : ∀ radix ∈ factors, 2 ≤ radix) (counted : factors.prod = product)
    (read : radixTokens host n tokens (factors, product) = .ok result) : (∀ radix ∈ result.1, 2 ≤ radix) ∧ result.1.prod = result.2 := by
  induction tokens generalizing factors product with
  | nil =>
      cases read
      exact ⟨wide, counted⟩
  | cons token rest ih =>
      unfold radixTokens at read
      split at read
      · cases read
      next radix parsed _ =>
        split_ifs at read with bad
        refine ih ?_ ?_ read
        · have some_ : 2 ≤ radix.toNat := by omega
          simpa [or_imp, forall_and] using ⟨wide, some_⟩
        · rw [List.prod_append, List.prod_singleton, counted]

theorem npuLeafFactorsOk {selected factors : List ℕ} (positive : 1 < n) (radices : RadixFactors n selected)
    (read : npuLeafFactors host n selected = .ok factors) : RadixFactors n factors := by
  unfold npuLeafFactors at read
  split at read
  · cases read
    exact radices
  next spec _ =>
    cases tokens : radixTokens host n (spec.splitOn "x") ([], 1) with
    | error message => simp [tokens, bind, Except.bind] at read
    | ok result =>
        obtain ⟨wide, counted⟩ := radixTokensOk (by simp) rfl tokens
        simp only [tokens, bind, Except.bind] at read
        split_ifs at read with other
        cases read
        have product : result.1.prod = n := counted.trans (not_not.mp other)
        refine ⟨fun none_ => ?_, wide, product⟩
        rw [none_, List.prod_nil] at product
        omega

theorem balancedSplitOk {pair : ℕ × ℕ} (found : balancedSplit host n = some pair) :
    pair.1 * pair.2 = n ∧ 1 < pair.1 ∧ 1 < pair.2 ∧ Supported pair.1 ∧ Supported pair.2 := by
  unfold balancedSplit at found
  dsimp only at found
  split at found
  · cases found
  next first rest same =>
    cases found
    have inside := foldPicks (fun best n1 : ℕ => |host.log (n / n1) - host.log n1| < |host.log (n / best) - host.log best|) first rest
    rw [← same, List.mem_filter, memDivisors, decide_eq_true_eq] at inside
    obtain ⟨⟨_, _, divides⟩, several, less, row, col⟩ := inside
    exact ⟨Nat.mul_div_cancel' divides, several, several.trans less, row, col⟩

theorem splitCandidateSound {n1 n2 : ℕ} (product : n1 * n2 = n) (several : 1 < n1) (several' : 1 < n2) (row : Supported n1)
    (col : Supported n2) : WellPlanned n (splitCandidate n n1 n2).node :=
  .fourStep product several several' (.stockham (supportedFactors row)) (.stockham (supportedFactors col))

/- Each of the short routes by itself. -/
theorem npuRoutesSound (directDftMax : ℤ) (atMost : directDftMax ≤ 128) (use3dLeaf use3dAivSmall : Bool) (positive : 0 < n) :
    ∀ route ∈ [aivSmallRoute host context n use3dAivSmall, leaf3dRoute host context n use3dLeaf, cubeDftRoute host context n,
      leafLengthRoute host context n, directDftRoute context n directDftMax, factorSplitRoute host context n,
      stockhamRoute host n], Sound Remembers route (Found n) := by
  have direct : n ≤ kDirectDftMaxN → Found n (some [directCandidate n]) := fun short =>
    foundSome (oneCandidate (.directDft positive short))
  have any : ∀ {α : Type} (outcome : Except String α), Sound Remembers (Program.ofExcept outcome : Build α) fun _ => True :=
    fun _ => soundOfExcept fun _ _ => trivial
  simp only [List.forall_mem_cons, List.not_mem_nil, false_imp_iff, implies_true, and_true]
  refine ⟨?aivSmall, ?leaf3d, ?cube, ?leafLength, ?direct, ?split, ?stockham⟩
  case aivSmall =>
    unfold aivSmallRoute
    split_ifs
    · exact soundBind selectSound fun factors radices => leafCandidateSound radices
    · exact soundPure foundNone
  case leaf3d =>
    unfold leaf3dRoute
    split_ifs
    · refine soundBind selectSound fun factors radices => ?_
      split_ifs
      · exact leafCandidateSound radices
      · exact soundPure foundNone
    · exact soundPure foundNone
  case cube =>
    refine soundBind (any _) fun _ _ => ?_
    dsimp only
    split_ifs with taken
    · exact soundPure (direct (by unfold kDirectDftMaxN; omega))
    · exact soundPure foundNone
  case leafLength =>
    refine soundBind (soundOfExcept fun _ same => same) fun leafLength read => ?_
    split
    next taken =>
      refine soundBind selectSound fun selected radices => ?_
      have start : RadixFactors n (if n = 64 then [8, 8] else selected) := by
        split_ifs with square
        · exact square ▸ by decide
        · exact radices
      refine soundBind (soundOfExcept fun _ same => same) fun factors read => ?_
      split_ifs
      · exact leafCandidateSound (npuLeafFactorsOk start.several start read)
      · exact soundThrow
    · exact soundPure foundNone
  case direct =>
    unfold directDftRoute
    split_ifs with taken
    · exact soundPure (direct (by unfold kDirectDftMaxN; omega))
    · exact soundPure foundNone
  case split =>
    refine soundBind (any _) fun _ _ => ?_
    split_ifs with taken
    · refine soundPure ?_
      cases found : balancedSplit host n with
      | none => exact foundNone
      | some pair =>
          obtain ⟨product, several, several', row, col⟩ := balancedSplitOk found
          refine foundSome fun candidate member => ?_
          rw [List.mem_singleton.mp member]
          exact splitCandidateSound product several several' row col
    · exact soundPure foundNone
  case stockham =>
    unfold stockhamRoute
    dsimp only
    split_ifs with factors few
    · exact soundPure (foundSome (oneCandidate (.stockham (stockhamFactorsOk factors.1 factors.2.1))))
    · exact soundPure (direct few)
    · exact soundPure foundNone

theorem tryEachSound {α : Type} {good : Option α → Prop} (nothing : good none) {routes : List (Build (Option α))}
    (all : ∀ route ∈ routes, Sound Remembers route good) : Sound Remembers (tryEach routes) good := by
  induction routes with
  | nil => exact soundPure nothing
  | cons route rest ih =>
      refine soundBind (all route List.mem_cons_self) fun found ok => ?_
      cases found with
      | some found => exact soundPure ok
      | none => exact ih fun other member => all other (List.mem_cons_of_mem route member)

theorem npuDirectDftMaxOk {most : ℤ} (read : npuDirectDftMax host = .ok most) : most ≤ 128 := by
  unfold npuDirectDftMax at read
  split at read
  · cases read
    exact le_rfl
  · split at read
    · split_ifs at read with allowed
      cases read
      omega
    · cases read

theorem npuShortRouteSound (positive : 0 < n) : Sound Remembers (npuShortRoute host context n) (Found n) := by
  refine soundBind (soundOfExcept fun _ same => same) fun directDftMax read => ?_
  refine soundBind (soundOfExcept fun _ _ => trivial) fun use3dLeaf (_ : True) => ?_
  refine soundBind (soundOfExcept fun _ _ => trivial) fun use3dAivSmall (_ : True) => ?_
  exact tryEachSound foundNone (npuRoutesSound directDftMax (npuDirectDftMaxOk read) use3dLeaf use3dAivSmall positive)

theorem npuCandidatesSound {callees : Callees} (below : SoundCallees callees) (positive : 0 < n) :
    Sound Remembers (npuCandidates host context callees n) (Candidates n) := by
  refine soundBind (npuShortRouteSound positive) fun found ok => ?_
  cases found with
  | some candidates => exact soundPure (ok candidates rfl)
  | none => exact soundBind (makeBluesteinSound below positive) fun made planned => soundPure (oneCandidate planned.1)

end Npu

section Generic
variable {host : Host} {context : RequestContext} {callees : Callees} {n : ℕ}

theorem noCandidates : Candidates n [] := fun _ member => absurd member List.not_mem_nil

theorem appendCandidates {candidates others : List (PlanCandidate ℚ)} (one : Candidates n candidates) (two : Candidates n others) :
    Candidates n (candidates ++ others) := fun candidate member => (List.mem_append.mp member).elim (one candidate) (two candidate)

theorem leafRouteSound : Sound Remembers (leafRoute host context n) (Candidates n) := by
  unfold leafRoute
  split_ifs
  · refine soundBind selectSound fun factors radices => ?_
    refine soundBind (soundOfExcept fun node made => makeLeafSound radices made) fun node planned => ?_
    exact soundBind selectSound fun again _ => soundPure (oneCandidate planned)
  · exact soundPure noCandidates

theorem directRouteSound (positive : 0 < n) : Candidates n (directRoute n) := by
  unfold directRoute
  split_ifs with short
  · exact oneCandidate (.directDft positive short)
  · exact noCandidates

theorem threadLocalRouteSound (below : SoundCallees callees) : Sound Remembers (threadLocalRoute host context callees n) (Candidates n) := by
  unfold threadLocalRoute
  split_ifs with shape
  · obtain ⟨_, _, columns, cross, register⟩ := shape
    have rows : n / kThreadLocalColLength / kThreadLocalCrossRadix * kThreadLocalCrossRadix = n / kThreadLocalColLength :=
      Nat.div_mul_cancel (Nat.dvd_of_mod_eq_zero cross)
    have row := threadLocalSound register
    rw [rows] at row
    have several : 1 < n / kThreadLocalColLength := by
      have least : ∀ radix ∈ kThreadLocalRegisterRadices, 1 < radix * kThreadLocalCrossRadix := by decide
      exact rows ▸ least _ register
    have col : WellPlanned kThreadLocalColLength (threadLocalLeaf 32) := @threadLocalSound 32 (by decide)
    exact soundBind (fourStepCostSound below) fun cost _ => soundPure
      (oneCandidate (.fourStep (Nat.div_mul_cancel (Nat.dvd_of_mod_eq_zero columns)) several (by decide) row col))
  · exact soundPure noCandidates

theorem splitRouteSound (below : SoundCallees callees) {candidates : List (PlanCandidate ℚ)} (good : Candidates n candidates) {n1 : ℕ}
    (member : n1 ∈ enumerateDivisors n) : Sound Remembers (splitRoute host context callees n candidates n1) (Candidates n) := by
  unfold splitRoute
  split_ifs with outside
  · exact soundPure good
  · have divides := (memDivisors.mp member).2.2
    obtain ⟨_, several', _⟩ := quotientProper divides (by omega) (by omega)
    refine soundCatching ?_ fun _ => soundPure good
    refine soundBind (fourStepNodeSound below (Nat.mul_div_cancel' divides) (by omega) several') fun node planned => ?_
    exact soundBind (fourStepCostSound below) fun cost _ => soundPure (appendCandidates good (oneCandidate planned))

theorem primeRouteSound (below : SoundCallees callees) (positive : 0 < n) :
    Sound Remembers (primeRoute host context callees n) (Candidates n) := by
  refine soundBind (makeBluesteinSound below positive) fun made planned => ?_
  refine soundBind (soundBind (below.cost made.2) fun _ _ => soundPure trivial) fun bluestein (_ : True) => ?_
  dsimp only
  split
  · refine soundBind (makeRaderSound below) fun rader convolved => ?_
    refine soundBind (soundBind (below.cost (n - 1)) fun _ _ => soundPure trivial) fun cost (_ : True) => ?_
    exact soundPure (appendCandidates (oneCandidate planned.1) (oneCandidate convolved))
  · exact soundPure (oneCandidate planned.1)

theorem genericSound (below : SoundCallees callees) (positive : 0 < n) :
    Sound Remembers (genericCandidates host context callees n) (Candidates n) := by
  refine soundBind leafRouteSound fun leaf one => soundBind (threadLocalRouteSound below) fun threadLocal two => ?_
  have loop := @soundLoop _ _ _ _ Remembers (splitRoute host context callees n) (enumerateDivisors n) (fun _ => Candidates n)
    (fun _ _ _ member good => splitRouteSound below good member) [] (leaf ++ directRoute n ++ threadLocal)
    (appendCandidates (appendCandidates one (directRouteSound positive)) two)
  refine soundBind loop fun candidates good => ?_
  split_ifs
  · exact primeRouteSound below positive
  · exact soundPure good

theorem candidatesSound (below : SoundCallees callees) : Sound Remembers (buildAutoCandidates host context callees n) (Candidates n) := by
  unfold buildAutoCandidates
  split_ifs with zero
  · exact soundThrow
  · exact npuCandidatesSound below (Nat.pos_of_ne_zero zero)
  · exact genericSound below (Nat.pos_of_ne_zero zero)

end Generic

section Levels
variable {host : Host} {context : RequestContext} {callees : Callees} {n : ℕ}

theorem selectCandidateOk {candidates : List (PlanCandidate ℚ)} {best : PlanCandidate ℚ} (good : Candidates n candidates)
    (chosen : selectCandidate candidates = .ok best) : WellPlanned n best.node := by
  cases candidates with
  | nil => cases chosen
  | cons first rest =>
      cases chosen
      exact good _ (foldPicks (fun best candidate => precedes candidate best = true) first rest)

/- The heuristic is no part of what is remembered. -/
theorem withHeuristicSound {α : Type} {search : Build α} {good : α → Prop} (allow : Bool) (sound : Sound Remembers search good) :
    Sound Remembers (withHeuristic allow search) good := by
  have switch : ∀ allow, Sound Remembers (Program.modify fun caches => { caches with parallelLeafHeuristic := allow } : Build Unit)
      fun _ => True := fun _ => soundModify fun caches remembers => ⟨remembers.node, remembers.factors⟩
  refine soundBind soundGet fun caches _ => soundBind (switch allow) fun _ _ => ?_
  refine soundBind (soundCatching sound fun message => soundBind (switch _) fun _ _ => soundThrow) fun found ok => ?_
  exact soundBind (switch _) fun _ _ => soundPure ok

theorem chosenCandidateSound (below : SoundCallees callees) : Sound Remembers (do
    let candidates ← buildAutoCandidates host context callees n
    Program.ofExcept (selectCandidate candidates) : Build (PlanCandidate ℚ)) fun candidate => WellPlanned n candidate.node :=
  soundBind (candidatesSound below) fun _ good => soundOfExcept fun _ chosen => selectCandidateOk good chosen

theorem buildAutoNodeSound (below : SoundCallees callees) (allow : Bool) :
    Sound Remembers (buildAutoNode host context callees n allow) (WellPlanned n) := by
  refine soundBind soundGet fun caches remembers => ?_
  cases here : caches.node n with
  | some node => exact soundPure (remembers.node n node here)
  | none =>
      refine soundBind (withHeuristicSound allow (chosenCandidateSound below)) fun candidate planned => ?_
      refine soundBind (soundModify fun caches remembers => ⟨fun m node known => ?_, remembers.factors⟩) fun _ _ => soundPure planned
      by_cases same : m = n
      · subst same
        have stored := (Function.update_self m (some candidate.node) caches.node).symm.trans known
        exact Option.some.inj stored ▸ planned
      · exact remembers.node m node ((Function.update_of_ne same (some candidate.node) caches.node).symm.trans known)

theorem costForSound (below : SoundCallees callees) : Sound Remembers (costFor host context callees n) fun _ => True := by
  refine soundBind soundGet fun caches _ => ?_
  cases caches.cost n with
  | some cost => exact soundPure trivial
  | none =>
      refine soundBind (withHeuristicSound false (candidatesSound below)) fun candidates good => ?_
      split_ifs
      · exact soundThrow
      · refine soundBind (soundOfExcept fun _ _ => trivial) fun best (_ : True) => ?_
        exact soundBind (soundModify fun caches remembers => ⟨remembers.node, remembers.factors⟩) fun _ _ => soundPure trivial

theorem levelSound (fuel : ℕ) : SoundCallees (level host context fuel) := by
  induction fuel with
  | zero => exact ⟨fun _ _ => soundOutOfFuel, fun _ => soundOutOfFuel⟩
  | succ fuel ih => exact ⟨fun _ allow => buildAutoNodeSound ih allow, fun _ => costForSound ih⟩

end Levels

end FlagFft.Plan
