import FlagFft.Library.Stores

/-! Filling a region of an address space. A loop whose every store carries the value its address is wanted to have
fills the addresses it stores to, in whatever order and however often, and changes nothing else. -/
namespace FlagFft.Library.Filling
open Stores
variable {α R σ ι : Type*}

/- The addresses that are done hold what is wanted, the others what they held at the start. -/
structure Filled (want start : α → R) (done : α → Prop) (m : α → R) : Prop where
  there : ∀ a, done a → m a = want a
  kept : ∀ a, ¬ done a → m a = start a

section Filled
variable {want start : α → R} {done more : α → Prop} {m m' : α → R}

theorem Filled.fresh : Filled want start (fun _ => False) start :=
  ⟨fun _ impossible => impossible.elim, fun _ _ => rfl⟩

theorem Filled.congr (filled : Filled want start done m) (same : ∀ a, done a ↔ more a) : Filled want start more m :=
  ⟨fun a here => filled.there a ((same a).mpr here), fun a outside => filled.kept a fun here => outside ((same a).mp here)⟩

theorem Filled.unique (filled : Filled want start done m) (filled' : Filled want start done m') : m = m' := by
  funext a
  by_cases here : done a
  · rw [filled.there a here, filled'.there a here]
  · rw [filled.kept a here, filled'.kept a here]

theorem Filled.commitAll [DecidableEq α] (filled : Filled want start done m) {stores : List (Store α R)}
    (wanted : ∀ s ∈ stores, s.value = want s.address) :
    Filled want start (fun a => done a ∨ ∃ s ∈ stores, s.address = a) (commitAll m stores) := by
  have written : ∀ a, (∃ s ∈ stores, s.address = a) → Stores.commitAll m stores a = want a := fun a stored =>
    commitAllWritten stored fun s inside here => here ▸ wanted s inside
  have other : ∀ a, (¬ ∃ s ∈ stores, s.address = a) → Stores.commitAll m stores a = m a := fun a missing =>
    commitAllUntouched fun s inside here => missing ⟨s, inside, here⟩
  constructor
  · intro a here
    by_cases stored : ∃ s ∈ stores, s.address = a
    · exact written a stored
    · rw [other a stored]
      exact filled.there a (here.resolve_right stored)
  · intro a outside
    rw [other a fun stored => outside (.inr stored)]
    exact filled.kept a fun here => outside (.inl here)

end Filled

/- What one step sets and the others keep holds at the end of a loop. -/
theorem foldlSettles {Q : σ → Prop} {step : σ → ι → σ} {order : List ι} {i : ι} (member : i ∈ order) (sets : ∀ s, Q (step s i))
    (keeps : ∀ j ∈ order, ∀ s, Q s → Q (step s j)) (s : σ) : Q (order.foldl step s) := by
  induction order generalizing s with
  | nil => exact absurd member List.not_mem_nil
  | cons j rest ih =>
    have keepsRest : ∀ j ∈ rest, ∀ s, Q s → Q (step s j) := fun j inside => keeps j (List.mem_cons_of_mem _ inside)
    rcases List.mem_cons.mp member with rfl | later
    · exact List.foldlRecOn rest step (sets s) fun s here j inside => keepsRest j inside s here
    · exact ih later keepsRest (step s j)

/- `count` elements of a source, one after the other. -/
def copy [DecidableEq α] (place : ℕ → α) (count : ℕ) (source : ℕ → R) (m : α → R) : α → R :=
  commitAll m ((List.range count).map fun i => ⟨place i, source i⟩)

section Copy
variable [DecidableEq α] {place : ℕ → α} {count : ℕ} {source : ℕ → R} {m : α → R}

theorem copyUntouched {a : α} (outside : ∀ i < count, place i ≠ a) : copy place count source m a = m a := by
  refine commitAllUntouched fun s inside => ?_
  obtain ⟨i, small, rfl⟩ := List.mem_map.mp inside
  exact outside i (List.mem_range.mp small)

theorem Filled.copy {want start : α → R} {done : α → Prop} (filled : Filled want start done m)
    (wanted : ∀ i < count, source i = want (place i)) :
    Filled want start (fun a => done a ∨ ∃ i < count, place i = a) (copy place count source m) := by
  refine (filled.commitAll fun s inside => ?_).congr fun a => ?_
  · obtain ⟨i, small, rfl⟩ := List.mem_map.mp inside
    exact wanted i (List.mem_range.mp small)
  · simp only [List.mem_map, List.mem_range, exists_exists_and_eq_and]

theorem copyThere (distinct : Function.Injective place) {i : ℕ} (small : i < count) :
    copy place count source m (place i) = source i := by
  refine commitAllWritten ⟨⟨place i, source i⟩, List.mem_map.mpr ⟨i, List.mem_range.mpr small, rfl⟩, rfl⟩ fun s inside here => ?_
  obtain ⟨j, _, rfl⟩ := List.mem_map.mp inside
  exact congrArg source (distinct here)

end Copy

/- What a piece of a program adds to the addresses that are done. `view` is the address space it fills, and `good` what
it needs of its state and keeps. -/
def Fills (view : σ → α → R) (good : σ → Prop) (want start : α → R) (region : α → Prop) (program : σ → σ) : Prop :=
  ∀ s done, good s → Filled want start done (view s) →
    good (program s) ∧ Filled want start (fun a => done a ∨ region a) (view (program s))

section Fills
variable {view : σ → α → R} {good : σ → Prop} {want start : α → R} {region more : α → Prop} {program : σ → σ}

theorem Fills.congr (fills : Fills view good want start region program) (same : ∀ a, region a ↔ more a) :
    Fills view good want start more program := fun s done ready filled =>
  ⟨(fills s done ready filled).1, (fills s done ready filled).2.congr fun a => or_congr_right (same a)⟩

theorem Fills.skip : Fills view good want start (fun _ => False) id := fun _ _ ready filled =>
  ⟨ready, filled.congr fun _ => by rw [or_false]⟩

/- The steps of a loop fill what each of them fills. -/
theorem Fills.loop {step : σ → ι → σ} {regions : ι → α → Prop} {order : List ι}
    (each : ∀ i ∈ order, Fills view good want start (regions i) (step · i)) :
    Fills view good want start (fun a => ∃ i ∈ order, regions i a) (order.foldl step) := by
  induction order with
  | nil => exact Fills.skip.congr fun a => by simp
  | cons i rest ih =>
    intro s done ready filled
    obtain ⟨ready', filled'⟩ := each i List.mem_cons_self s done ready filled
    obtain ⟨last, all⟩ := ih (fun j inside => each j (List.mem_cons_of_mem i inside)) _ _ ready' filled'
    exact ⟨last, all.congr fun a => by simp [or_assoc]⟩

/- What is prepared for a program, outside of the address space it fills. -/
theorem Fills.prepare {ready : σ → Prop} {load : σ → σ} (fills : Fills view ready want start region program)
    (loaded : ∀ s, good s → ready (load s)) (same : ∀ s, good s → view (load s) = view s) (kept : ∀ s, ready s → good s) :
    Fills view good want start region fun s => program (load s) := by
  intro s done start' filled
  obtain ⟨ends, all⟩ := fills (load s) done (loaded s start') ((same s start').symm ▸ filled)
  exact ⟨kept _ ends, all⟩

/- From the start to the end. -/
theorem Fills.run (fills : Fills view good want start region program) {s : σ} (ready : good s) (fresh : view s = start) :
    Filled want start region (view (program s)) :=
  (fills s (fun _ => False) ready (fresh ▸ Filled.fresh)).2.congr fun _ => by rw [false_or]

end Fills

end FlagFft.Library.Filling
