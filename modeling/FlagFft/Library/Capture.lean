import Mathlib.Data.List.Basic

/-! Operations issued on a stream. While a capture is open they are recorded and not run; a recording
runs later, once for each launch, on whatever memory it finds then. -/
namespace FlagFft.Library.Capture

variable {σ : Type*}

abbrev Op (σ : Type*) := σ → σ

def runAll (ops : List (Op σ)) (m : σ) : σ := ops.foldl (fun m op => op m) m

structure Stream (σ : Type*) where
  memory : σ
  capture : Option (List (Op σ))

def Stream.issue (s : Stream σ) (op : Op σ) : Stream σ :=
  match s.capture with
  | none => { s with memory := op s.memory }
  | some recorded => { s with capture := some (recorded ++ [op]) }

def Stream.issueAll (s : Stream σ) (ops : List (Op σ)) : Stream σ := ops.foldl Stream.issue s

theorem Stream.issueAllAppend {s : Stream σ} {first second : List (Op σ)} :
    s.issueAll (first ++ second) = (s.issueAll first).issueAll second := by
  unfold Stream.issueAll
  exact List.foldl_append

theorem Stream.issueAllRuns {s : Stream σ} {ops : List (Op σ)} (idle : s.capture = none) :
    s.issueAll ops = ⟨runAll ops s.memory, none⟩ := by
  induction ops generalizing s with
  | nil =>
    cases s with
    | mk memory capture => cases idle; rfl
  | cons op rest ih =>
    have now : s.issue op = ⟨op s.memory, none⟩ := by
      cases s with
      | mk memory capture => cases idle; rfl
    change (s.issue op).issueAll rest = _
    rw [now]
    exact ih rfl

theorem Stream.issueAllRecords {s : Stream σ} {ops recorded : List (Op σ)} (active : s.capture = some recorded) :
    s.issueAll ops = ⟨s.memory, some (recorded ++ ops)⟩ := by
  induction ops generalizing s recorded with
  | nil =>
    cases s with
    | mk memory capture => cases active; simp [Stream.issueAll]
  | cons op rest ih =>
    have now : s.issue op = ⟨s.memory, some (recorded ++ [op])⟩ := by
      cases s with
      | mk memory capture => cases active; rfl
    change (s.issue op).issueAll rest = _
    rw [now, ih rfl, List.append_assoc]
    rfl

/- The cells an operation reads and the cells it may write. -/
structure Footprint {α R : Type*} (op : Op (α → R)) where
  reads : α → Prop
  writes : α → Prop
  kept : ∀ m a, ¬ writes a → op m a = m a
  determined : ∀ m m' : α → R, (∀ a, reads a → m a = m' a) → ∀ a, writes a → op m a = op m' a

namespace Footprint
variable {α R : Type*} {op : Op (α → R)}

def Apart (footprint : Footprint op) : Prop := ∀ a, footprint.reads a → ¬ footprint.writes a

/- What writes no cell that it reads does the same again. -/
theorem Apart.twice {footprint : Footprint op} (apart : footprint.Apart) (m : α → R) : op (op m) = op m := by
  funext a
  by_cases written : footprint.writes a
  · exact footprint.determined _ _ (fun b read => footprint.kept m b (apart b read)) a written
  · exact footprint.kept _ a written

end Footprint
end FlagFft.Library.Capture
