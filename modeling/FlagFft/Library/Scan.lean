import Mathlib.Order.Lattice
import Mathlib.Data.List.Basic

/-! A running minimum: the lightest element of a list so far, the smaller one of two equally light. -/
namespace FlagFft.Library.Scan
variable {α K : Type*} [LinearOrder α] [LinearOrder K] (weight : α → K)

def pick (best candidate : α) : α :=
  if weight candidate < weight best ∨ (weight candidate = weight best ∧ candidate < best) then candidate else best

/- The same, but only for candidates smaller than the best one so far. -/
def pickBelow (best candidate : α) : α := if best ≤ candidate then best else pick weight best candidate

variable {weight} {best : α} {candidates : List α}

theorem pickLe (best candidate : α) :
    weight (pick weight best candidate) ≤ weight best ∧ weight (pick weight best candidate) ≤ weight candidate := by
  unfold pick
  split
  next lighter => exact ⟨lighter.elim le_of_lt fun same => same.1.le, le_rfl⟩
  next heavier => exact ⟨le_rfl, not_lt.mp fun lighter => heavier (.inl lighter)⟩

theorem pickCases (weight : α → K) (best candidate : α) :
    pick weight best candidate = candidate ∨ pick weight best candidate = best :=
  ite_eq_or_eq _ _ _

theorem scanMember (best : α) (candidates : List α) : candidates.foldl (pick weight) best ∈ best :: candidates := by
  induction candidates generalizing best with
  | nil => exact List.mem_cons_self
  | cons candidate rest ih =>
      rw [List.foldl_cons]
      rcases List.mem_cons.mp (ih (pick weight best candidate)) with same | later
      · rw [same]
        rcases pickCases weight best candidate with new | old
        · rw [new]
          exact List.mem_cons_of_mem _ List.mem_cons_self
        · rw [old]
          exact List.mem_cons_self
      · exact List.mem_cons_of_mem _ (List.mem_cons_of_mem _ later)

theorem scanLe (best : α) (candidates : List α) :
    ∀ candidate ∈ best :: candidates, weight (candidates.foldl (pick weight) best) ≤ weight candidate := by
  induction candidates generalizing best with
  | nil =>
      intro candidate member
      rw [List.mem_singleton.mp member]
      exact le_rfl
  | cons next rest ih =>
      intro candidate member
      rw [List.foldl_cons]
      obtain ⟨old, new⟩ := @pickLe _ _ _ _ weight best next
      have first := ih (pick weight best next) _ List.mem_cons_self
      rcases List.mem_cons.mp member with rfl | member
      · exact first.trans old
      · rcases List.mem_cons.mp member with rfl | later
        · exact first.trans new
        · exact ih _ candidate (List.mem_cons_of_mem _ later)

/- Nothing is passed over where the candidates come in descending order. -/
theorem descendingScan (order : candidates.Pairwise (· ≥ ·)) (below : ∀ candidate ∈ candidates, candidate ≤ best) :
    candidates.foldl (pickBelow weight) best = candidates.foldl (pick weight) best := by
  induction candidates generalizing best with
  | nil => rfl
  | cons next rest ih =>
      obtain ⟨first, later⟩ := List.pairwise_cons.mp order
      have small := below next List.mem_cons_self
      have same : pickBelow weight best next = pick weight best next := by
        unfold pickBelow
        split
        next repeated =>
            have twin := le_antisymm repeated small
            subst twin
            exact (ite_self _).symm
        next => rfl
      rw [List.foldl_cons, List.foldl_cons, same]
      refine ih later fun candidate member => ?_
      rcases pickCases weight best next with new | old
      · rw [new]
        exact first candidate member
      · rw [old]
        exact below candidate (List.mem_cons_of_mem _ member)

/- What is heavier than the best one so far does not replace it. -/
theorem passesHeavier {held candidate : α} (heavier : weight held < weight candidate) :
    pickBelow weight held candidate = held := by
  unfold pickBelow pick
  split
  · rfl
  · rw [if_neg (by simp [heavier.le, heavier.ne'])]

/- A small element that comes first hides a larger, lighter one. -/
theorem scanHides {before after : List α} {small large : α} (order : small < large) (below : small < best)
    (fresh : large ∉ before) (light : weight small < weight best)
    (heavy : ∀ candidate ∈ before ++ small :: after, candidate ≠ small → candidate ≠ large → weight best < weight candidate) :
    (before ++ small :: after).foldl (pickBelow weight) best = small := by
  have taken : pickBelow weight best small = small := by
    unfold pickBelow pick
    rw [if_neg (not_le.mpr below), if_pos (.inl light)]
  have kept : pickBelow weight small small = small := if_pos le_rfl
  have last : after.foldl (pickBelow weight) small = small := by
    have passed : ∀ candidate ∈ after, pickBelow weight small candidate = small := by
      intro candidate member
      by_cases isSmall : candidate = small
      · rw [isSmall, kept]
      · by_cases isLarge : candidate = large
        · exact if_pos (isLarge ▸ order.le)
        · exact passesHeavier (light.trans (heavy candidate (by simp [member]) isSmall isLarge))
    clear heavy
    induction after with
    | nil => rfl
    | cons candidate after ih =>
        rw [List.foldl_cons, passed candidate List.mem_cons_self]
        exact ih fun other member => passed other (List.mem_cons_of_mem _ member)
  -- up to the small element the scan holds it already, or still the first one
  suffices ∀ held, held = best ∨ held = small → (before ++ small :: after).foldl (pickBelow weight) held = small from
    this best (.inl rfl)
  induction before with
  | nil =>
      rintro held (rfl | rfl)
      · rw [List.nil_append, List.foldl_cons, taken, last]
      · rw [List.nil_append, List.foldl_cons, kept, last]
  | cons candidate before ih =>
      intro held holds
      rw [List.cons_append, List.foldl_cons]
      refine ih (fun member => fresh (List.mem_cons_of_mem _ member))
        (fun other member => heavy other (List.mem_cons_of_mem _ member)) _ ?_
      by_cases isSmall : candidate = small
      · right
        rw [isSmall]
        rcases holds with rfl | rfl
        · exact taken
        · exact kept
      · have isLarge : candidate ≠ large := fun same => fresh (same ▸ List.mem_cons_self)
        have heavier := heavy candidate List.mem_cons_self isSmall isLarge
        rcases holds with rfl | rfl
        · exact .inl (passesHeavier heavier)
        · exact .inr (passesHeavier (light.trans heavier))

end FlagFft.Library.Scan
