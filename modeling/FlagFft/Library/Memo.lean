import Mathlib.Data.List.Basic

/-! A table of remembered results: a call whose key is in the table returns what an earlier call of that key
computed. Failures are not remembered. -/
namespace FlagFft.Library.Memo
variable {α κ ρ ε : Type} [DecidableEq κ]

inductive Event (α : Type) where
  | call (input : α)
  | clear

section Steps
variable (key : α → κ) (check : α → Except ε Unit) (compute : α → Except ε ρ)

/- What a call returns when nothing is remembered. -/
def fresh (input : α) : Except ε ρ := (check input).bind fun _ => compute input

def consult (table : List (κ × ρ)) (input : α) : Except ε ρ × List (κ × ρ) :=
  match check input with
  | .error failure => (.error failure, table)
  | .ok _ =>
    match table.lookup (key input) with
    | some result => (.ok result, table)
    | none =>
      match compute input with
      | .error failure => (.error failure, table)
      | .ok result => (.ok result, (key input, result) :: table)

/- The results of the calls of a run, in order. -/
def recallAll (table : List (κ × ρ)) : List (Event α) → List (Except ε ρ)
  | [] => []
  | .clear :: rest => recallAll [] rest
  | .call input :: rest =>
    let (result, table) := consult key check compute table input
    result :: recallAll table rest

end Steps

def calls : List (Event α) → List α
  | [] => []
  | .clear :: rest => calls rest
  | .call input :: rest => input :: calls rest

section Sound
variable {key : α → κ} {compute : α → Except ε ρ}

theorem lookupMember {table : List (κ × ρ)} {k : κ} {result : ρ} (found : table.lookup k = some result) :
    (k, result) ∈ table := by
  induction table with
  | nil => cases found
  | cons entry rest ih =>
    obtain ⟨k', result'⟩ := entry
    rw [List.lookup_cons] at found
    split at found
    · rename_i same
      cases Option.some.inj found
      rw [LawfulBEq.eq_of_beq same]
      exact List.mem_cons_self
    · exact List.mem_cons_of_mem _ (ih found)

/- A second call of a key gets what the first one computed. -/
theorem recallAgain {check : α → Except ε Unit} {a b : α} {result : ρ} (same : key a = key b) (passed : check a = .ok ())
    (passed' : check b = .ok ()) (computed : compute a = .ok result) :
    recallAll key check compute [] [.call a, .call b] = [.ok result, .ok result] := by
  have first : consult key check compute [] a = (.ok result, [(key a, result)]) := by
    unfold consult
    rw [passed, computed]
    rfl
  have second : consult key check compute [(key a, result)] b = (.ok result, [(key a, result)]) := by
    unfold consult
    rw [passed', same, List.lookup_cons_self]
  simp only [recallAll, first, second]

/- Every entry was computed by one of the calls. -/
def Recorded (key : α → κ) (compute : α → Except ε ρ) (past : List α) (table : List (κ × ρ)) : Prop :=
  ∀ entry ∈ table, ∃ input ∈ past, key input = entry.1 ∧ compute input = .ok entry.2

theorem recallRecorded (check : α → Except ε Unit) {past : List α} {table : List (κ × ρ)} (recorded : Recorded key compute past table) (input : α) :
    Recorded key compute (past ++ [input]) (consult key check compute table input).2 := by
  have kept : Recorded key compute (past ++ [input]) table := by
    intro entry member
    obtain ⟨earlier, inside, equal⟩ := recorded entry member
    exact ⟨earlier, List.mem_append_left _ inside, equal⟩
  unfold consult
  split
  · exact kept
  · split
    · exact kept
    · split
      · exact kept
      · rename_i result computed
        intro entry member
        rcases List.mem_cons.mp member with rfl | member
        · exact ⟨input, List.mem_append_right _ List.mem_cons_self, rfl, computed⟩
        · exact kept entry member

theorem recallFresh (check : α → Except ε Unit) {past : List α} {table : List (κ × ρ)} (recorded : Recorded key compute past table) {input : α}
    (agree : ∀ earlier ∈ past, key earlier = key input → compute earlier = compute input) :
    (consult key check compute table input).1 = fresh check compute input := by
  unfold consult fresh
  split
  · rename_i failed
    rw [failed]
    rfl
  · rename_i passed
    rw [passed]
    split
    · rename_i result found
      obtain ⟨earlier, inside, same, computed⟩ := recorded _ (lookupMember found)
      rw [agree earlier inside same] at computed
      exact computed.symm
    · split
      · rename_i failed
        exact failed.symm
      · rename_i computed
        exact computed.symm

/- Calls that agree on their keys only where they compute the same never notice the table. -/
theorem recallAllFresh (check : α → Except ε Unit) {past : List α} {table : List (κ × ρ)} {events : List (Event α)}
    (recorded : Recorded key compute past table)
    (agree : ∀ a ∈ past ++ calls events, ∀ b ∈ past ++ calls events, key a = key b → compute a = compute b) :
    recallAll key check compute table events = (calls events).map (fresh check compute) := by
  induction events generalizing past table with
  | nil => rfl
  | cons event rest ih =>
    cases event with
    | clear =>
      have empty : Recorded key compute past ([] : List (κ × ρ)) := fun entry member => nomatch member
      exact ih empty agree
    | call input =>
      have inside : input ∈ past ++ calls (.call input :: rest) := List.mem_append_right _ List.mem_cons_self
      have first := recallFresh check recorded fun earlier known => agree earlier (List.mem_append_left _ known) input inside
      have shifted : past ++ calls (.call input :: rest) = (past ++ [input]) ++ calls rest := by simp [calls]
      rw [shifted] at agree
      have later := ih (recallRecorded check recorded input) agree
      simp only [recallAll, calls, List.map_cons]
      rw [first, later]

end Sound

end FlagFft.Library.Memo
