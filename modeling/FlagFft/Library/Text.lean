import Mathlib.Data.List.Basic
import Mathlib.Data.Int.Init

/-! Texts that can be read back: words over an alphabet, up to the first character outside it, and numbers
and lists of numbers as such words. -/
namespace FlagFft.Library.Text

section Words
variable {alphabet : Char → Bool} {u u' r r' : List Char}

/- What follows a word does not go on with a character of its alphabet. -/
def Ends (alphabet : Char → Bool) (rest : List Char) : Prop := ∀ c ∈ rest.head?, alphabet c = false

theorem endsNil : Ends alphabet [] := by simp [Ends]

theorem endsCons {c : Char} (outside : alphabet c = false) : Ends alphabet (c :: r) := by simpa [Ends] using outside

theorem splitWord (word : ∀ c ∈ u, alphabet c = true) (word' : ∀ c ∈ u', alphabet c = true) (ends : Ends alphabet r)
    (ends' : Ends alphabet r') (same : u ++ r = u' ++ r') : u = u' ∧ r = r' := by
  induction u generalizing u' with
  | nil =>
    cases u' with
    | nil => exact ⟨rfl, same⟩
    | cons c' u' =>
      subst same
      have outside := ends c' rfl
      rw [word' c' List.mem_cons_self] at outside
      cases outside
  | cons c u ih =>
    cases u' with
    | nil =>
      have outside := ends' c (by rw [List.nil_append] at same; rw [← same]; rfl)
      rw [word c List.mem_cons_self] at outside
      cases outside
    | cons c' u' =>
      obtain ⟨rfl, rest⟩ := List.cons.inj same
      obtain ⟨rfl, tail⟩ := ih (fun d mem => word d (List.mem_cons_of_mem _ mem))
        (fun d mem => word' d (List.mem_cons_of_mem _ mem)) rest
      exact ⟨rfl, tail⟩

end Words

section Numbers
variable {r r' : List Char}

def isInt (c : Char) : Bool := c.isDigit || c == '-'

theorem natChars (n : ℕ) : ∀ c ∈ n.repr.toList, c.isDigit = true := by
  intro c mem
  rw [Nat.toList_repr] at mem
  exact Nat.isDigit_of_mem_toDigits (by decide) (Nat.le_refl 10) mem

theorem negText (m : ℕ) : (toString (Int.negSucc m)).toList = '-' :: (m + 1).repr.toList := by
  change ("-" ++ (m + 1).repr).toList = _
  simp

theorem intChars (n : ℤ) : ∀ c ∈ (toString n).toList, isInt c = true := by
  intro c mem
  unfold isInt
  cases n with
  | ofNat m =>
    rw [natChars m c mem]
    rfl
  | negSucc m =>
    rw [negText] at mem
    rcases List.mem_cons.mp mem with rfl | digit
    · rfl
    · rw [natChars _ c digit]
      rfl

theorem natInjective {m n : ℕ} (same : m.repr.toList = n.repr.toList) : m = n := by
  rw [Nat.toList_repr, Nat.toList_repr] at same
  rw [← Nat.ofDigitChars_ten_toDigits (n := m), same, Nat.ofDigitChars_ten_toDigits]

theorem natNotMinus {m n : ℕ} : m.repr.toList ≠ '-' :: n.repr.toList := by
  intro same
  have digit := natChars m '-' (by rw [same]; exact List.mem_cons_self)
  cases digit

theorem intInjective {m n : ℤ} (same : (toString m).toList = (toString n).toList) : m = n := by
  cases m with
  | ofNat a =>
    cases n with
    | ofNat b => exact congrArg Int.ofNat (natInjective same)
    | negSucc b =>
      rw [negText] at same
      exact absurd same natNotMinus
  | negSucc a =>
    cases n with
    | ofNat b =>
      rw [negText] at same
      exact absurd same.symm natNotMinus
    | negSucc b =>
      rw [negText, negText] at same
      have next := natInjective (List.cons.inj same).2
      exact congrArg Int.negSucc (Nat.succ.inj next)

theorem splitInt {m n : ℤ} (ends : Ends isInt r) (ends' : Ends isInt r')
    (same : (toString m).toList ++ r = (toString n).toList ++ r') : m = n ∧ r = r' := by
  obtain ⟨digits, rest⟩ := splitWord (intChars m) (intChars n) ends ends' same
  exact ⟨intInjective digits, rest⟩

end Numbers

section Lists
variable {r r' : List Char}

/- Numbers with commas between them. -/
def joinInts : List ℤ → String
  | [] => ""
  | [value] => toString value
  | value :: next :: rest => toString value ++ "," ++ joinInts (next :: rest)

def isIntOrComma (c : Char) : Bool := isInt c || c == ','

theorem joinIntsChars (values : List ℤ) : ∀ c ∈ (joinInts values).toList, isIntOrComma c = true := by
  have number : ∀ (n : ℤ), ∀ c ∈ (toString n).toList, isIntOrComma c = true := by
    intro n c mem
    unfold isIntOrComma
    rw [intChars n c mem]
    rfl
  induction values with
  | nil =>
    intro c mem
    cases mem
  | cons value rest ih =>
    cases rest with
    | nil => exact number value
    | cons next rest =>
      intro c mem
      unfold joinInts at mem
      simp only [String.toList_append, List.mem_append] at mem
      rcases mem with (first | comma) | tail
      · exact number value c first
      · cases List.mem_singleton.mp comma
        rfl
      · exact ih c tail

theorem intNonempty (n : ℤ) : (toString n).toList ≠ [] := by
  cases n with
  | ofNat m =>
    intro empty
    change m.repr.toList = [] at empty
    rw [Nat.toList_repr] at empty
    exact Nat.toDigits_ne_nil empty
  | negSucc m =>
    rw [negText]
    exact List.cons_ne_nil _ _

/- What stands after the first number. -/
def joinRest : List ℤ → List Char
  | [] => []
  | next :: rest => ',' :: (joinInts (next :: rest)).toList

theorem joinCons (value : ℤ) (rest : List ℤ) :
    (joinInts (value :: rest)).toList = (toString value).toList ++ joinRest rest := by
  cases rest with
  | nil => simp [joinInts, joinRest]
  | cons next rest => simp [joinInts, joinRest]

theorem joinIntsInjective {values values' : List ℤ} (same : (joinInts values).toList = (joinInts values').toList) :
    values = values' := by
  have ends : ∀ rest, Ends isInt (joinRest rest) := by
    intro rest
    cases rest with
    | nil => exact endsNil
    | cons next rest => exact endsCons rfl
  have nonempty : ∀ value rest, (joinInts (value :: rest)).toList ≠ [] := by
    intro value rest empty
    rw [joinCons] at empty
    exact intNonempty value (List.append_eq_nil_iff.mp empty).1
  induction values generalizing values' with
  | nil =>
    cases values' with
    | nil => rfl
    | cons value' rest' => exact absurd same.symm (nonempty value' rest')
  | cons value rest ih =>
    cases values' with
    | nil => exact absurd same (nonempty value rest)
    | cons value' rest' =>
      rw [joinCons, joinCons] at same
      obtain ⟨rfl, tail⟩ := splitInt (ends rest) (ends rest') same
      cases rest with
      | nil =>
        cases rest' with
        | nil => rfl
        | cons => cases tail
      | cons next rest =>
        cases rest' with
        | nil => cases tail
        | cons next' rest' => exact congrArg (value :: ·) (ih (List.cons.inj tail).2)

theorem splitInts {values values' : List ℤ} (ends : Ends isIntOrComma r) (ends' : Ends isIntOrComma r')
    (same : (joinInts values).toList ++ r = (joinInts values').toList ++ r') : values = values' ∧ r = r' := by
  obtain ⟨texts, rest⟩ := splitWord (joinIntsChars values) (joinIntsChars values') ends ends' same
  exact ⟨joinIntsInjective texts, rest⟩

end Lists

end FlagFft.Library.Text
