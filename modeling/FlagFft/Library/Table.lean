import Mathlib.Data.List.Induction
import Mathlib.Data.Multiset.Filter
import Mathlib.Data.Int.Init

/-! Tables as multisets of rows. A row that replaces the rows of its key is the one that is selected by this key,
until another row of the key replaces it. -/
namespace FlagFft.Library.Table
variable {Row Key : Type*} [DecidableEq Key]

/- DELETE .. WHERE, then INSERT -/
def replaceWhere (condition : Row → Prop) [DecidablePred condition] (row : Row) (table : Multiset Row) : Multiset Row :=
  row ::ₘ table.filter fun other => ¬ condition other

/- SELECT .. WHERE .. ORDER BY time DESC LIMIT 1. Between equal times any row may be the one. -/
inductive Selects (condition : Row → Prop) [DecidablePred condition] (time : Row → ℤ) (table : Multiset Row) :
    Option Row → Prop where
  | found (row : Row) : row ∈ table.filter condition → (∀ other ∈ table.filter condition, time other ≤ time row) →
      Selects condition time table (some row)
  | nothing : table.filter condition = 0 → Selects condition time table none

/- The rows of a key after rows have replaced those of their keys: the last one of this key. -/
def lastOf (key : Row → Key) (wanted : Key) (rows : List Row) : Option Row :=
  (rows.filter fun row => key row = wanted).getLast?

def replaceAll (key : Row → Key) (rows : List Row) : Multiset Row :=
  rows.foldl (fun table row => replaceWhere (fun other => key other = key row) row table) 0

section Keys
variable {key : Row → Key} {wanted : Key}

theorem replaceAllSnoc (rows : List Row) (row : Row) :
    replaceAll key (rows ++ [row]) = replaceWhere (fun other => key other = key row) row (replaceAll key rows) := by
  rw [replaceAll, List.foldl_append]
  rfl

theorem lastSnoc (rows : List Row) (row : Row) :
    lastOf key wanted (rows ++ [row]) = if key row = wanted then some row else lastOf key wanted rows := by
  unfold lastOf
  rw [List.filter_append]
  split
  case isTrue same => simp [same]
  case isFalse other => simp [other]

/- Induction on the rows, from the last one back. -/
theorem keyRows (rows : List Row) :
    (replaceAll key rows).filter (fun row => key row = wanted) = (lastOf key wanted rows).elim 0 fun row => {row} := by
  induction rows using List.reverseRecOn with
  | nil => rfl
  | append_singleton rows row ih =>
    rw [replaceAllSnoc, lastSnoc, replaceWhere]
    split
    case isTrue same =>
      have gone : ((replaceAll key rows).filter fun other => ¬ key other = key row).filter (fun other => key other = wanted) = 0 := by
        rw [Multiset.filter_filter, Multiset.filter_eq_nil]
        rintro other _ ⟨here, there⟩
        exact there (here.trans same.symm)
      refine (Multiset.filter_cons_of_pos (p := fun row => key row = wanted) _ same).trans ?_
      rw [gone]
      rfl
    case isFalse other =>
      have kept : ((replaceAll key rows).filter fun other => ¬ key other = key row).filter (fun other => key other = wanted) =
          (replaceAll key rows).filter fun other => key other = wanted := by
        rw [Multiset.filter_filter]
        refine Multiset.filter_congr fun row' _ => ⟨And.left, fun here => ⟨here, ?_⟩⟩
        rintro same
        exact other (same.symm.trans here)
      refine (Multiset.filter_cons_of_neg (p := fun row => key row = wanted) _ other).trans ?_
      rw [kept, ih]

/- Whichever row is selected, it is the last of its key. -/
theorem selectsLast {condition : Row → Prop} [DecidablePred condition] {time : Row → ℤ} {rows : List Row}
    (byKey : ∀ row ∈ replaceAll key rows, condition row ↔ key row = wanted) (selected : Option Row) :
    Selects condition time (replaceAll key rows) selected ↔ selected = lastOf key wanted rows := by
  have only : (replaceAll key rows).filter condition = (lastOf key wanted rows).elim 0 fun row => {row} := by
    rw [← keyRows]
    exact Multiset.filter_congr byKey
  constructor
  · rintro (⟨row, inside, -⟩ | nothing)
    · rw [only] at inside
      cases last : lastOf key wanted rows with
      | none => rw [last] at inside; exact absurd inside (Multiset.notMem_zero _)
      | some row' =>
        rw [last] at inside
        exact congrArg some (Multiset.mem_singleton.mp inside)
    · rw [only] at nothing
      cases last : lastOf key wanted rows with
      | none => rfl
      | some row' => rw [last] at nothing; exact absurd nothing (Multiset.singleton_ne_zero _)
  · rintro rfl
    cases last : lastOf key wanted rows with
    | none =>
      rw [last] at only
      exact .nothing only
    | some row =>
      rw [last] at only
      refine .found row ?_ ?_
      · rw [only]
        exact Multiset.mem_singleton_self row
      · intro other inside
        rw [only] at inside
        rw [Multiset.mem_singleton.mp inside]

end Keys

end FlagFft.Library.Table
