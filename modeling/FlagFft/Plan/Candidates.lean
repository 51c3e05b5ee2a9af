import FlagFft.Library.Distinct
import FlagFft.Plan.Key

/-! Ranking and de-duplicating plan candidates by their keys. Costs are whatever the cost model returns: nothing
here depends on how they are ordered. -/
namespace FlagFft.Plan
open Library.Distinct
variable {C : Type}

structure PlanCandidate (C : Type) where
  node : PlanNode
  cost : C
  priority : ℤ

def PlanCandidate.repr (candidate : PlanCandidate C) : String := (PlanKey.fromNode candidate.node).repr

def uniqueLoop (limit : ℤ) (seen : List String) (unique : List (PlanCandidate C)) :
    List (PlanCandidate C) → List (PlanCandidate C)
  | [] => unique
  | candidate :: rest =>
    if candidate.repr ∈ seen then uniqueLoop limit seen unique rest
    else if limit ≤ (unique ++ [candidate]).length then unique ++ [candidate]
    else uniqueLoop limit (seen ++ [candidate.repr]) (unique ++ [candidate]) rest

section Top
variable [LT C] [DecidableEq C] [DecidableRel fun a b : C => a < b]

/- The comparison handed to the sort. -/
def cheaper (a b : PlanCandidate C) : Bool :=
  if a.cost ≠ b.cost then a.cost < b.cost
  else if a.priority ≠ b.priority then a.priority < b.priority
  else a.repr < b.repr

def sortCandidates (candidates : List (PlanCandidate C)) : List (PlanCandidate C) :=
  candidates.mergeSort fun a b => !cheaper b a

def topCandidates (candidates : List (PlanCandidate C)) (limit : ℤ) : List (PlanCandidate C) :=
  uniqueLoop limit [] [] (sortCandidates candidates)

end Top

section Decomposition

/- What the closure that appends holds on to. -/
structure Unique (C : Type) where
  seen : List String := []
  result : List (PlanCandidate C) := []

def appendUnique (unique : Unique C) (candidate : PlanCandidate C) : Unique C :=
  if candidate.repr ∈ unique.seen then unique
  else { seen := unique.seen ++ [candidate.repr], result := unique.result ++ [candidate] }

/- Each candidate after the automatic one is built only while there is room for it. -/
def appendWithin (limit : ℤ) (unique : Unique C) (candidate : PlanCandidate C) : Unique C :=
  if unique.result.length < limit then appendUnique unique candidate else unique

/- The candidates of a prime length: which ones follow the automatic plan is up to the length and the device. -/
def primeCandidates (automatic : PlanCandidate C) (others : List (PlanCandidate C)) (limit : ℤ) : List (PlanCandidate C) :=
  (others.foldl (appendWithin limit) (appendUnique {} automatic)).result

structure SplitPair (C : Type) where
  n1 : ℤ
  n2 : ℤ
  row : PlanNode
  col : PlanNode
  cost : C
  priority : ℤ

def SplitPair.candidate (n : ℤ) (pair : SplitPair C) : PlanCandidate C :=
  { node := .fourStep n pair.n1 pair.n2 pair.row pair.col, cost := pair.cost, priority := pair.priority }

/- The split of the automatic plan is passed over by its dimensions, before any key is compared. -/
def automaticSplit (automatic : PlanCandidate C) (pair : SplitPair C) : Bool :=
  match automatic.node with
  | .fourStep _ n1 n2 _ _ => n1 == pair.n1 && n2 == pair.n2
  | _ => false

def splitLoop (n limit : ℤ) (automatic : PlanCandidate C) (unique : Unique C) : List (SplitPair C) → Unique C
  | [] => unique
  | pair :: rest =>
    if limit ≤ unique.result.length then unique
    else if automaticSplit automatic pair then splitLoop n limit automatic unique rest
    else splitLoop n limit automatic (appendUnique unique (pair.candidate n)) rest

def splitCandidates (n : ℤ) (automatic : PlanCandidate C) (pairs : List (SplitPair C)) (limit : ℤ) : List (PlanCandidate C) :=
  (splitLoop n limit automatic (appendUnique {} automatic) pairs).result

end Decomposition

section Keys

/- Among positive trees the keys keep what the trees themselves would keep. -/
theorem distinctNodes {candidates : List (PlanCandidate C)} (positive : ∀ candidate ∈ candidates, candidate.node.Positive) :
    distinct PlanCandidate.repr [] candidates = distinct PlanCandidate.node [] candidates := by
  have agree : ∀ a ∈ [] ++ candidates, ∀ b ∈ [] ++ candidates, a.repr = b.repr ↔ a.node = b.node := by
    intro a inside b inside'
    constructor
    · exact keyInjective (positive a inside) (positive b inside')
    · exact congrArg fun node => (PlanKey.fromNode node).repr
  exact distinctCongr agree

/- Induction on what is left of the sorted candidates; the loop always has room for one more. -/
theorem uniqueLoopDistinct {limit : ℤ} {unique : List (PlanCandidate C)} (room : unique.length < max 1 limit)
    (rest : List (PlanCandidate C)) : uniqueLoop limit (unique.map PlanCandidate.repr) unique rest =
      unique ++ (distinct PlanCandidate.repr (unique.map PlanCandidate.repr) rest).take
        ((max 1 limit).toNat - unique.length) := by
  induction rest generalizing unique with
  | nil => simp [uniqueLoop, distinct]
  | cons candidate rest ih =>
    have grown : (unique ++ [candidate]).length = unique.length + 1 := by simp
    unfold uniqueLoop
    split
    case isTrue seen => rw [distinctSeen seen, ih room]
    case isFalse fresh =>
      rw [distinctNew fresh]
      split
      case isTrue full =>
        have last : (max 1 limit).toNat - unique.length = 1 := by omega
        rw [last, List.take_succ_cons, List.take_zero]
      case isFalse more =>
        have wider : ((unique ++ [candidate]).length : ℤ) < max 1 limit := by omega
        have later := ih wider
        have left : (max 1 limit).toNat - unique.length = (max 1 limit).toNat - (unique ++ [candidate]).length + 1 := by
          omega
        rw [List.map_append, List.map_singleton] at later
        rw [later, left, List.take_succ_cons, List.append_assoc, List.singleton_append]

end Keys

section Appends
variable {limit : ℤ} {unique : Unique C}

theorem appendFull (full : limit ≤ unique.result.length) (candidates : List (PlanCandidate C)) :
    candidates.foldl (appendWithin limit) unique = unique := by
  induction candidates with
  | nil => rfl
  | cons candidate rest ih =>
    have kept : appendWithin limit unique candidate = unique := if_neg (Int.not_lt.mpr full)
    rw [List.foldl_cons, kept, ih]

theorem appendsDistinct (candidates : List (PlanCandidate C)) :
    (candidates.foldl (appendWithin limit) unique).result =
      unique.result ++ (distinct PlanCandidate.repr unique.seen candidates).take (limit.toNat - unique.result.length) := by
  induction candidates generalizing unique with
  | nil => simp [distinct]
  | cons candidate rest ih =>
    rcases Int.lt_or_le unique.result.length limit with room | full
    · have taken : appendWithin limit unique candidate = appendUnique unique candidate := if_pos room
      rw [List.foldl_cons, taken, ih]
      unfold appendUnique
      split
      case isTrue seen => rw [distinctSeen seen]
      case isFalse fresh =>
        have left : limit.toNat - unique.result.length = limit.toNat - (unique.result.length + 1) + 1 := by omega
        rw [distinctNew fresh, left, List.take_succ_cons, List.length_append, List.length_singleton, List.append_assoc,
          List.singleton_append]
    · have none : limit.toNat - unique.result.length = 0 := by omega
      rw [appendFull full, none, List.take_zero, List.append_nil]

/- The automatic candidate comes first, whatever the limit. -/
theorem automaticFirst (positive : 0 < limit) (automatic : PlanCandidate C) (others : List (PlanCandidate C)) :
    (others.foldl (appendWithin limit) (appendUnique {} automatic)).result =
      (distinct PlanCandidate.repr [] (automatic :: others)).take limit.toNat := by
  have left : limit.toNat = limit.toNat - 1 + 1 := by omega
  rw [appendsDistinct, distinctNew List.not_mem_nil, left, List.take_succ_cons]
  rfl

/- The loop over the splits appends the ones that are not the automatic plan's. -/
theorem splitLoopAppends (n : ℤ) (automatic : PlanCandidate C) (pairs : List (SplitPair C)) :
    splitLoop n limit automatic unique pairs = ((pairs.filter fun pair => !automaticSplit automatic pair).map
      (SplitPair.candidate n)).foldl (appendWithin limit) unique := by
  induction pairs generalizing unique with
  | nil => rfl
  | cons pair rest ih =>
    unfold splitLoop
    split
    case isTrue full => rw [appendFull full]
    case isFalse room =>
      split
      case isTrue passed => rw [ih, List.filter_cons_of_neg (by simp [passed])]
      case isFalse offered =>
        have taken : appendWithin limit unique (pair.candidate n) = appendUnique unique (pair.candidate n) :=
          if_pos (Int.not_le.mp room)
        rw [ih, List.filter_cons_of_pos (by simp [offered]), List.map_cons, List.foldl_cons, taken]

end Appends

/- What is kept of the candidates offered: the first of each plan, as far as there is room. Nothing else is left out. -/
structure KeepsDistinct (offered kept : List (PlanCandidate C)) (limit : ℕ) : Prop where
  first : kept = (distinct PlanCandidate.node [] offered).take limit
  covers : ∀ candidate ∈ offered, (∃ other ∈ kept, other.node = candidate.node) ∨ limit ≤ kept.length

section Kept
variable {offered kept : List (PlanCandidate C)} {limit : ℕ}

theorem keepsDistinct (positive : ∀ candidate ∈ offered, candidate.node.Positive)
    (first : kept = (distinct PlanCandidate.repr [] offered).take limit) : KeepsDistinct offered kept limit := by
  rw [distinctNodes positive] at first
  refine ⟨first, ?_⟩
  intro candidate member
  rw [first]
  rcases Nat.le_total (distinct PlanCandidate.node [] offered).length limit with all | cut
  · rw [List.take_of_length_le all]
    exact Or.inl ((distinctCovers member).resolve_left List.not_mem_nil)
  · exact Or.inr (Nat.le_of_eq (List.length_take_of_le cut).symm)

theorem topKeepsDistinct [LT C] [DecidableEq C] [DecidableRel fun a b : C => a < b] {candidates : List (PlanCandidate C)}
    (positive : ∀ candidate ∈ candidates, candidate.node.Positive) (limit : ℤ) :
    KeepsDistinct (sortCandidates candidates) (topCandidates candidates limit) (max 1 limit).toNat := by
  have sorted : ∀ candidate ∈ sortCandidates candidates, candidate.node.Positive := by
    intro candidate member
    exact positive candidate ((List.mergeSort_perm _ _).mem_iff.mp member)
  have room : (([] : List (PlanCandidate C)).length : ℤ) < max 1 limit := Int.lt_of_lt_of_le Int.one_pos (Int.le_max_left _ _)
  exact keepsDistinct sorted (uniqueLoopDistinct room (sortCandidates candidates))

theorem primeKeepsDistinct {automatic : PlanCandidate C} {others : List (PlanCandidate C)} {limit : ℤ}
    (positive : ∀ candidate ∈ automatic :: others, candidate.node.Positive) (some : 0 < limit) :
    KeepsDistinct (automatic :: others) (primeCandidates automatic others limit) limit.toNat :=
  keepsDistinct positive (automaticFirst some automatic others)

def offeredSplits (n : ℤ) (automatic : PlanCandidate C) (pairs : List (SplitPair C)) : List (PlanCandidate C) :=
  (pairs.filter fun pair => !automaticSplit automatic pair).map (SplitPair.candidate n)

theorem splitKeepsDistinct {automatic : PlanCandidate C} {n : ℤ} {pairs : List (SplitPair C)} {limit : ℤ}
    (positive : ∀ candidate ∈ automatic :: offeredSplits n automatic pairs, candidate.node.Positive) (some : 0 < limit) :
    KeepsDistinct (automatic :: offeredSplits n automatic pairs) (splitCandidates n automatic pairs limit) limit.toNat := by
  have first := automaticFirst some automatic (offeredSplits n automatic pairs)
  unfold offeredSplits at first
  rw [← splitLoopAppends] at first
  exact keepsDistinct positive first

end Kept

/- The keys tell any two positive trees apart, so that de-duplicating by key drops no plan that is not there already. -/
theorem keysTellPlansApart :
    (∀ a b : PlanNode, a.Positive → b.Positive → (PlanKey.fromNode a).repr = (PlanKey.fromNode b).repr → a = b) ∧
    (∀ {C : Type} [LT C] [DecidableEq C] [DecidableRel fun a b : C => a < b] (candidates : List (PlanCandidate C)) (limit : ℤ),
      (∀ candidate ∈ candidates, candidate.node.Positive) →
      KeepsDistinct (sortCandidates candidates) (topCandidates candidates limit) (max 1 limit).toNat) ∧
    (∀ {C : Type} (automatic : PlanCandidate C) (others : List (PlanCandidate C)) (limit : ℤ), 0 < limit →
      (∀ candidate ∈ automatic :: others, candidate.node.Positive) →
      KeepsDistinct (automatic :: others) (primeCandidates automatic others limit) limit.toNat) ∧
    (∀ {C : Type} (n : ℤ) (automatic : PlanCandidate C) (pairs : List (SplitPair C)) (limit : ℤ), 0 < limit →
      (∀ candidate ∈ automatic :: offeredSplits n automatic pairs, candidate.node.Positive) →
      KeepsDistinct (automatic :: offeredSplits n automatic pairs) (splitCandidates n automatic pairs limit) limit.toNat) := by
  refine ⟨?_, ?_, ?_, ?_⟩
  · intro a b positive positive' same
    exact keyInjective positive positive' same
  · intro C _ _ _ candidates limit positive
    exact topKeepsDistinct positive limit
  · intro C automatic others limit some positive
    exact primeKeepsDistinct positive some
  · intro C n automatic pairs limit some positive
    exact splitKeepsDistinct positive some

def smallVolume (n2 : ℤ) : PlanNode := .threeDim 2 3 n2 .rtrt (.directDft n2) (.directDft 3) (.directDft 2)

theorem smallVolumePositive {n2 : ℤ} (positive : 0 < n2) : (smallVolume n2).Positive :=
  ⟨by decide, by decide, positive, trivial, trivial, trivial⟩

def smallSplit (n1 n2 : ℤ) : SplitPair ℤ :=
  { n1, n2, row := .directDft n1, col := .directDft n2, cost := 0, priority := 0 }

/- Two volumes of one length class, and one list of candidates through each of the three ways. -/
theorem keysTellPlansApartSmall :
    (PlanKey.fromNode (smallVolume 4)).repr ≠ (PlanKey.fromNode (smallVolume 5)).repr ∧
    KeepsDistinct (sortCandidates [⟨smallVolume 4, 7, 0⟩, ⟨smallVolume 4, 5, 0⟩])
      (topCandidates [⟨smallVolume 4, (7 : ℤ), 0⟩, ⟨smallVolume 4, 5, 0⟩] 8) 8 ∧
    KeepsDistinct [⟨smallVolume 4, (7 : ℤ), 0⟩, ⟨smallVolume 5, 5, 0⟩]
      (primeCandidates ⟨smallVolume 4, 7, 0⟩ [⟨smallVolume 5, 5, 0⟩] 8) 8 ∧
    KeepsDistinct (⟨smallVolume 4, (7 : ℤ), 0⟩ :: offeredSplits 24 ⟨smallVolume 4, 7, 0⟩ [smallSplit 4 6])
      (splitCandidates 24 ⟨smallVolume 4, 7, 0⟩ [smallSplit 4 6] 8) 8 := by
  have volumes : ∀ candidate ∈ [(⟨smallVolume 4, 7, 0⟩ : PlanCandidate ℤ), ⟨smallVolume 4, 5, 0⟩], candidate.node.Positive := by
    intro candidate member
    simp only [List.mem_cons, List.not_mem_nil, or_false] at member
    rcases member with rfl | rfl <;> exact smallVolumePositive (by decide)
  have others : ∀ candidate ∈ [(⟨smallVolume 4, 7, 0⟩ : PlanCandidate ℤ), ⟨smallVolume 5, 5, 0⟩], candidate.node.Positive := by
    intro candidate member
    simp only [List.mem_cons, List.not_mem_nil, or_false] at member
    rcases member with rfl | rfl <;> exact smallVolumePositive (by decide)
  have splits : ∀ candidate ∈ (⟨smallVolume 4, 7, 0⟩ : PlanCandidate ℤ) ::
      offeredSplits 24 ⟨smallVolume 4, 7, 0⟩ [smallSplit 4 6], candidate.node.Positive := by
    intro candidate member
    rcases List.mem_cons.mp member with rfl | split
    · exact smallVolumePositive (by decide)
    · cases List.mem_singleton.mp split
      exact ⟨trivial, trivial⟩
  refine ⟨?_, ?_, ?_, ?_⟩
  · intro same
    have equal := keysTellPlansApart.1 _ _ (smallVolumePositive (by decide)) (smallVolumePositive (by decide)) same
    exact absurd equal (by decide)
  · exact keysTellPlansApart.2.1 _ 8 volumes
  · exact keysTellPlansApart.2.2.1 _ _ 8 (by decide) others
  · exact keysTellPlansApart.2.2.2 24 _ _ 8 (by decide) splits

end FlagFft.Plan
