import Mathlib.Data.List.Nodup

/-! Keeping the first row of each key, in order. -/
namespace FlagFft.Library.Distinct
variable {α κ κ' : Type} [DecidableEq κ] [DecidableEq κ']

def distinct (key : α → κ) (seen : List κ) : List α → List α
  | [] => []
  | row :: rest => if key row ∈ seen then distinct key seen rest else row :: distinct key (seen ++ [key row]) rest

theorem distinctSeen {key : α → κ} {seen : List κ} {row : α} {rest : List α} (old : key row ∈ seen) :
    distinct key seen (row :: rest) = distinct key seen rest := if_pos old

theorem distinctNew {key : α → κ} {seen : List κ} {row : α} {rest : List α} (fresh : key row ∉ seen) :
    distinct key seen (row :: rest) = row :: distinct key (seen ++ [key row]) rest := if_neg fresh

theorem distinctCovers {key : α → κ} {seen : List κ} {rows : List α} {row : α} (offered : row ∈ rows) :
    key row ∈ seen ∨ ∃ kept ∈ distinct key seen rows, key kept = key row := by
  induction rows generalizing seen with
  | nil => cases offered
  | cons first rest ih =>
    by_cases old : key first ∈ seen
    · rw [distinctSeen old]
      cases offered with
      | head => exact Or.inl old
      | tail _ later => exact ih later
    · rw [distinctNew old]
      cases offered with
      | head => exact Or.inr ⟨row, List.mem_cons_self, rfl⟩
      | tail _ later =>
        rcases ih later with known | ⟨kept, member, same⟩
        · rcases List.mem_append.mp known with known | known
          · exact Or.inl known
          · exact Or.inr ⟨first, List.mem_cons_self, (List.mem_singleton.mp known).symm⟩
        · exact Or.inr ⟨kept, List.mem_cons_of_mem _ member, same⟩

/- Keys that tell the same rows apart keep the same rows. -/
theorem distinctCongr {key : α → κ} {key' : α → κ'} {old rows : List α}
    (agree : ∀ a ∈ old ++ rows, ∀ b ∈ old ++ rows, key a = key b ↔ key' a = key' b) :
    distinct key (old.map key) rows = distinct key' (old.map key') rows := by
  induction rows generalizing old with
  | nil => rfl
  | cons row rest ih =>
    have member : row ∈ old ++ row :: rest := List.mem_append_right _ List.mem_cons_self
    have known : key row ∈ old.map key ↔ key' row ∈ old.map key' := by
      simp only [List.mem_map]
      constructor <;> rintro ⟨a, inside, same⟩ <;> refine ⟨a, inside, ?_⟩
      · exact (agree a (List.mem_append_left _ inside) row member).mp same
      · exact (agree a (List.mem_append_left _ inside) row member).mpr same
    by_cases seen : key row ∈ old.map key
    · rw [distinctSeen seen, distinctSeen (known.mp seen)]
      refine ih fun a inside b inside' => agree a ?_ b ?_ <;>
        simp only [List.mem_append, List.mem_cons] at inside inside' ⊢ <;> tauto
    · rw [distinctNew seen, distinctNew (fun found => seen (known.mpr found))]
      have shifted : old ++ row :: rest = (old ++ [row]) ++ rest := by simp
      rw [shifted] at agree
      have rest := ih agree
      rw [List.map_append, List.map_append] at rest
      exact congrArg (List.cons row) rest

/- Lists that a key tells apart have no element twice between them. -/
theorem flatMapNodup {ι β : Type*} (key : β → ι) {order : List ι} {pieces : ι → List β} (once : order.Nodup)
    (each : ∀ i ∈ order, (pieces i).Nodup) (found : ∀ i ∈ order, ∀ b ∈ pieces i, key b = i) :
    (order.flatMap pieces).Nodup := by
  refine List.nodup_flatMap.mpr ⟨each, once.imp_of_mem ?_⟩
  intro i j inside inside' apart b here there
  exact apart ((found i inside b here).symm.trans (found j inside' b there))

end FlagFft.Library.Distinct
