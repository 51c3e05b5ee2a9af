import FlagFft.Library.Stores
import Mathlib.Algebra.Module.Basic
import Mathlib.Algebra.Module.Pi
import Mathlib.Algebra.BigOperators.Pi
import Mathlib.Tactic.Ring

/-! One buffer in place of two. The groups of a pass load from the buffer they store to, one group after the other.
The pass is the one on two buffers when no group stores where a later one loads; when one does, a cell is lost. -/
namespace FlagFft.Library.InPlace
open Library.Stores

variable {α ι R : Type*}

/- The cells a group loads, and the cells it stores to whatever it loaded. -/
structure Footprint (stores : ι → (α → R) → List (Store α R)) (loads : ι → α → Prop) : Prop where
  same : ∀ g m m', (∀ a, loads g a → m' a = m a) → stores g m' = stores g m
  addresses : ∀ g m m', (stores g m').map Store.address = (stores g m).map Store.address

variable {stores : ι → (α → R) → List (Store α R)} {loads : ι → α → Prop} {order : List ι} {m m' : α → R}

theorem Footprint.memAddress (ok : Footprint stores loads) {g : ι} {a : α} (member : ∃ s ∈ stores g m, s.address = a) :
    ∃ s ∈ stores g m', s.address = a := by
  have here : a ∈ (stores g m).map Store.address := List.mem_map.mpr member
  rw [← ok.addresses g m m'] at here
  exact List.mem_map.mp here

section Buffer

variable [DecidableEq α]

theorem commitAllBase {base base' : α → R} {written : List (Store α R)} {a : α} (covered : ∃ s ∈ written, s.address = a) :
    commitAll base written a = commitAll base' written a := by
  induction written generalizing base base' with
  | nil => simp at covered
  | cons s rest ih =>
      rw [commitAllCons, commitAllCons]
      by_cases later : ∃ t ∈ rest, t.address = a
      · exact ih later
      · have untouched : ∀ t ∈ rest, t.address ≠ a := fun t member same => later ⟨t, member, same⟩
        obtain ⟨t, member, same⟩ := covered
        have here : s.address = a := by
          rcases List.mem_cons.mp member with rfl | member
          · exact same
          · exact absurd same (untouched t member)
        rw [commitAllUntouched untouched, commitAllUntouched untouched]
        simp [commit, here]

theorem commitAllAgree {base base' : α → R} {written : List (Store α R)} {a : α} (same : base a = base' a) :
    commitAll base written a = commitAll base' written a := by
  by_cases covered : ∃ s ∈ written, s.address = a
  · exact commitAllBase covered
  · have untouched : ∀ s ∈ written, s.address ≠ a := fun s member here => covered ⟨s, member, here⟩
    rw [commitAllUntouched untouched, commitAllUntouched untouched, same]

/- No group stores where a later group loads. -/
theorem Footprint.ordered (ok : Footprint stores loads)
    (apart : order.Pairwise fun g later => ∀ s ∈ stores g m, ¬loads later s.address) :
    runStores stores order m = commitAll m (order.flatMap fun g => stores g m) := by
  suffices loop : ∀ m', (∀ g ∈ order, ∀ a, loads g a → m' a = m a) →
      runStores stores order m' = commitAll m' (order.flatMap fun g => stores g m) from loop m fun _ _ _ _ => rfl
  induction order with
  | nil => exact fun _ _ => rfl
  | cons g rest ih =>
      intro m' fresh
      obtain ⟨now, later⟩ := List.pairwise_cons.mp apart
      have same : stores g m' = stores g m := ok.same g m m' (fresh g List.mem_cons_self)
      rw [List.flatMap_cons, commitAllAppend]
      change runStores stores rest (commitAll m' (stores g m')) = _
      rw [same]
      refine ih later _ fun h member a loaded => ?_
      have untouched : ∀ s ∈ stores g m, s.address ≠ a := fun s here equal => now h member s here (equal ▸ loaded)
      rw [commitAllUntouched untouched]
      exact fresh h (List.mem_cons_of_mem g member) a loaded

theorem Footprint.apartFrom (ok : Footprint stores loads) {p : α} (unread : ∀ g ∈ order, ¬loads g p)
    (same : ∀ a, a ≠ p → m' a = m a) {a : α} (other : a ≠ p) : runStores stores order m' a = runStores stores order m a := by
  induction order generalizing m m' with
  | nil => exact same a other
  | cons g rest ih =>
      have equal : stores g m' = stores g m := ok.same g m m' fun b loaded =>
        same b fun here => unread g List.mem_cons_self (here ▸ loaded)
      change runStores stores rest (commitAll m' (stores g m')) a = runStores stores rest (commitAll m (stores g m)) a
      rw [equal]
      exact ih (fun h member => unread h (List.mem_cons_of_mem g member)) fun b away => commitAllAgree (same b away)

/- A cell that is stored to before any group has loaded it does not show in the result. -/
theorem Footprint.forgets (ok : Footprint stores loads) {before after : List ι} {g : ι} {p : α}
    (unread : ∀ h ∈ before, ¬loads h p) (unreadHere : ¬loads g p) (written : ∃ s ∈ stores g m, s.address = p)
    (same : ∀ a, a ≠ p → m' a = m a) :
    runStores stores (before ++ g :: after) m' = runStores stores (before ++ g :: after) m := by
  have split (memory : α → R) : runStores stores (before ++ g :: after) memory =
      runStores stores after (commitAll (runStores stores before memory) (stores g (runStores stores before memory))) := by
    simp [runStores, List.foldl_append]
  have away : ∀ a, a ≠ p → runStores stores before m' a = runStores stores before m a :=
    fun a other => ok.apartFrom unread same other
  have equal : stores g (runStores stores before m') = stores g (runStores stores before m) :=
    ok.same g _ _ fun a loaded => away a fun here => unreadHere (here ▸ loaded)
  have cells : commitAll (runStores stores before m') (stores g (runStores stores before m)) =
      commitAll (runStores stores before m) (stores g (runStores stores before m)) := by
    funext a
    by_cases here : a = p
    · exact commitAllBase (here ▸ ok.memAddress written)
    · exact commitAllAgree (away a here)
  rw [split, split, equal, cells]

end Buffer

section Linear

variable {K : Type*} [CommRing K]

/- Superposition, cell by cell. -/
def Superposes {β : Type*} (f : (α → K) → β → K) : Prop :=
  ∀ (c : K) (x y : α → K) b, f (fun a => x a + c * y a) b = f x b + c * f y b

variable {β γ : Type*}

theorem Superposes.comp {f : (α → K) → β → K} {g : (β → K) → γ → K} (outer : Superposes g) (inner : Superposes f) :
    Superposes fun x => g (f x) := by
  intro c x y b
  have split : f (fun a => x a + c * y a) = fun b => f x b + c * f y b := funext (inner c x y)
  simp only [split]
  exact outer c (f x) (f y) b

theorem Superposes.zero {f : (α → K) → β → K} (linear : Superposes f) (b : β) : f (fun _ => 0) b = 0 := by
  have twice := linear 1 (fun _ => 0) (fun _ => 0) b
  simpa using twice

theorem superposesId : Superposes fun x : α → K => x := fun _ _ _ _ => rfl

/- Stores whose values superpose, onto cells that superpose. -/
theorem Superposes.commitAll [DecidableEq β] {base : (α → K) → β → K} (linear : Superposes base)
    {entries : List (β × ((α → K) → K))}
    (values : ∀ e ∈ entries, ∀ (c : K) x y, e.2 (fun a => x a + c * y a) = e.2 x + c * e.2 y) :
    Superposes fun x => Library.Stores.commitAll (base x) (entries.map fun e => ⟨e.1, e.2 x⟩) := by
  induction entries generalizing base with
  | nil => exact linear
  | cons e rest ih =>
      simp only [List.map_cons, commitAllCons]
      refine ih (fun c x y b => ?_) fun e' member => values e' (List.mem_cons_of_mem e member)
      simp only [commit]
      split
      · exact values e List.mem_cons_self c x y
      · exact linear c x y b

/- A map that superposes and does not vanish does not vanish on some pulse. -/
theorem Superposes.pulse {f : (ℕ → K) → β → K} (linear : Superposes f) {n : ℕ} {b : β}
    (below : ∀ x y, (∀ i < n, x i = y i) → f x b = f y b) {x : ℕ → K} (nonzero : f x b ≠ 0) :
    ∃ i < n, f (fun j => if j = i then 1 else 0) b ≠ 0 := by
  by_contra flat
  push Not at flat
  have zero := linear.zero b
  have partialSums : ∀ k ≤ n, f (fun j => if j < k then x j else 0) b = 0 := by
    intro k
    induction k with
    | zero => simpa using zero
    | succ k ih =>
        intro inside
        have split : (fun j => if j < k + 1 then x j else 0) =
            fun j => (if j < k then x j else 0) + x k * (if j = k then 1 else 0) := by
          funext j
          rcases Nat.lt_trichotomy j k with below | rfl | above
          · simp [below, below.ne, Nat.lt_succ_of_lt below]
          · simp
          · simp [above.ne', Nat.not_lt.mpr above.le, Nat.not_lt.mpr (Nat.succ_le_of_lt above)]
        rw [split, linear, ih (Nat.le_of_succ_le inside), flat k inside]
        ring
  refine nonzero ?_
  rw [below x (fun j => if j < n then x j else 0) fun i inside => by simp [inside]]
  exact partialSums n le_rfl

end Linear

end FlagFft.Library.InPlace
