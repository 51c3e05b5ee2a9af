import Mathlib.Data.List.Nodup
import Mathlib.Data.List.Basic

/-! Stores into an address space and the serial execution of independent programs.
A store list is committed left to right, so the last store of an address wins.
Programs that only touch their own region commute: any order gives the same memory. -/
namespace FlagFft.Library.Stores

structure Store (α R : Type*) where
  address : α
  value : R
  deriving DecidableEq, Repr

variable {α R ι : Type*}

section Commit
variable [DecidableEq α]

def commit (m : α → R) (s : Store α R) : α → R :=
  fun a => if a = s.address then s.value else m a

def commitAll (m : α → R) (stores : List (Store α R)) : α → R := stores.foldl commit m

@[simp] theorem commitAllNil {m : α → R} : commitAll m [] = m := rfl

@[simp] theorem commitAllCons {m : α → R} {s : Store α R} {rest} :
    commitAll m (s :: rest) = commitAll (commit m s) rest := rfl

theorem commitAllAppend {m : α → R} {first second : List (Store α R)} :
    commitAll m (first ++ second) = commitAll (commitAll m first) second := by
  simp only [commitAll, List.foldl_append]

theorem commitAllUntouched {m : α → R} {stores : List (Store α R)} {a}
    (untouched : ∀ s ∈ stores, s.address ≠ a) : commitAll m stores a = m a := by
  induction stores generalizing m with
  | nil => rfl
  | cons s rest ih =>
      have apart : a ≠ s.address := (untouched s List.mem_cons_self).symm
      rw [commitAllCons, ih (fun t ht => untouched t (List.mem_cons_of_mem s ht))]
      simp only [commit, if_neg apart]

/- Every store of the address carries the same value, so the order of the stores is irrelevant. -/
theorem commitAllWritten {m : α → R} {stores : List (Store α R)} {a v}
    (written : ∃ s ∈ stores, s.address = a)
    (agree : ∀ s ∈ stores, s.address = a → s.value = v) : commitAll m stores a = v := by
  induction stores generalizing m with
  | nil => obtain ⟨s, member, _⟩ := written; simp at member
  | cons s rest ih =>
      have agreeRest : ∀ t ∈ rest, t.address = a → t.value = v :=
        fun t ht => agree t (List.mem_cons_of_mem s ht)
      rw [commitAllCons]
      by_cases later : ∃ t ∈ rest, t.address = a
      · exact ih later agreeRest
      · have here : s.address = a := by
          obtain ⟨t, member, same⟩ := written
          rcases List.mem_cons.mp member with rfl | member
          · exact same
          · exact absurd ⟨t, member, same⟩ later
        rw [commitAllUntouched (fun t ht same => later ⟨t, ht, same⟩)]
        simp only [commit, here, if_true, agree s List.mem_cons_self here]

/- Stores of different addresses may be reordered. -/
theorem commitAllPerm {m : α → R} {first second : List (Store α R)} (same : first.Perm second)
    (once : (first.map Store.address).Nodup) : commitAll m first = commitAll m second := by
  funext a
  by_cases written : ∃ s ∈ first, s.address = a
  · obtain ⟨s, member, here⟩ := written
    have agree : ∀ t ∈ first, t.address = a → t.value = s.value := fun t inside there =>
      congrArg Store.value (List.inj_on_of_nodup_map once inside member (there.trans here.symm))
    rw [commitAllWritten ⟨s, member, here⟩ agree,
      commitAllWritten ⟨s, same.mem_iff.mp member, here⟩ fun t inside => agree t (same.mem_iff.mpr inside)]
  · rw [commitAllUntouched fun s member here => written ⟨s, member, here⟩,
      commitAllUntouched fun s member here => written ⟨s, same.mem_iff.mpr member, here⟩]

/- A loop that computes one store after the other and may fail; here no store fails. -/
theorem commitAllOk {ε : Type*} {entry : ι → Except ε (Store α R)} {order : List ι} (store : ι → Store α R)
    (ok : ∀ p ∈ order, entry p = .ok (store p)) (m : α → R) :
    order.foldlM (fun m p => do return commit m (← entry p)) m = .ok (commitAll m (order.map store)) := by
  induction order generalizing m with
  | nil => rfl
  | cons p rest ih =>
      rw [List.foldlM_cons, ok p List.mem_cons_self]
      exact ih (fun q hq => ok q (List.mem_cons_of_mem p hq)) _

/- A loop whose steps fail or do what `run` does, and one whose steps do not fail. -/
theorem foldlMRun {ε σ : Type*} {step : σ → ι → Except ε σ} {run : σ → ι → σ}
    (each : ∀ s i s', step s i = .ok s' → s' = run s i) {order : List ι} {s s' : σ} (ok : order.foldlM step s = .ok s') :
    s' = order.foldl run s := by
  induction order generalizing s with
  | nil => exact (Except.ok.inj ok).symm
  | cons i rest ih =>
      rw [List.foldlM_cons] at ok
      cases first : step s i with
      | error failure => rw [first] at ok; cases ok
      | ok next =>
          rw [first] at ok
          rw [List.foldl_cons, ← each s i next first]
          exact ih ok

theorem foldlMEnds {ε σ : Type*} {step : σ → ι → Except ε σ} {order : List ι}
    (each : ∀ i ∈ order, ∀ s, ∃ s', step s i = .ok s') (s : σ) : ∃ s', order.foldlM step s = .ok s' := by
  induction order generalizing s with
  | nil => exact ⟨s, rfl⟩
  | cons i rest ih =>
      obtain ⟨next, first⟩ := each i List.mem_cons_self s
      rw [List.foldlM_cons, first]
      exact ih (fun j inside => each j (List.mem_cons_of_mem i inside)) next

/- A loop whose steps do not fail, seen through a view in which they are the steps of another. -/
theorem foldlMSimulates {ε σ τ : Type*} {view : σ → τ} {step : σ → ι → Except ε σ} {run : τ → ι → τ} {order : List ι}
    (each : ∀ i ∈ order, ∀ s, ∃ s', step s i = .ok s' ∧ view s' = run (view s) i) (s : σ) :
    ∃ s', order.foldlM step s = .ok s' ∧ view s' = order.foldl run (view s) := by
  induction order generalizing s with
  | nil => exact ⟨s, rfl, rfl⟩
  | cons i rest ih =>
      obtain ⟨next, first, seen⟩ := each i List.mem_cons_self s
      rw [List.foldlM_cons, first, List.foldl_cons, ← seen]
      exact ih (fun j inside => each j (List.mem_cons_of_mem i inside)) next

/- A loop whose body loads everything it needs and then commits its stores. -/
def runStores (stores : ι → (α → R) → List (Store α R)) (order : List ι) (m : α → R) : α → R :=
  order.foldl (fun m g => commitAll m (stores g m)) m

@[simp] theorem runStoresNil {stores : ι → (α → R) → List (Store α R)} {m} :
    runStores stores [] m = m := rfl

@[simp] theorem runStoresSingle {stores : ι → (α → R) → List (Store α R)} {g m} :
    runStores stores [g] m = commitAll m (stores g m) := rfl

/- Iterations that never store to an address they load from see the memory the loop started with. -/
theorem runStoresFlat {stores : ι → (α → R) → List (Store α R)} {order : List ι} {m : α → R}
    (readable : α → Prop)
    (stable : ∀ g ∈ order, ∀ m', (∀ a, readable a → m' a = m a) → stores g m' = stores g m)
    (apart : ∀ g ∈ order, ∀ s ∈ stores g m, ¬ readable s.address) :
    runStores stores order m = commitAll m (order.flatMap (fun g => stores g m)) := by
  suffices loop : ∀ m', (∀ a, readable a → m' a = m a) →
      runStores stores order m' = commitAll m' (order.flatMap (fun g => stores g m)) from
    loop m (fun _ _ => rfl)
  induction order with
  | nil => intro m' _; rfl
  | cons g rest ih =>
      intro m' same
      have now : stores g m' = stores g m := stable g List.mem_cons_self m' same
      have keep : ∀ a, readable a → commitAll m' (stores g m) a = m a := by
        intro a ha
        rw [commitAllUntouched, same a ha]
        rintro s hs rfl
        exact apart g List.mem_cons_self s hs ha
      rw [List.flatMap_cons, commitAllAppend]
      change runStores stores rest (commitAll m' (stores g m')) = _
      rw [now]
      exact ih (fun q hq => stable q (List.mem_cons_of_mem g hq))
        (fun q hq => apart q (List.mem_cons_of_mem g hq)) _ keep

end Commit

/- The programs of one launch, run one after another in some order. -/
def launch (program : ι → (α → R) → (α → R)) (order : List ι) (m : α → R) : α → R :=
  order.foldl (fun m p => program p m) m

@[simp] theorem launchNil {program : ι → (α → R) → (α → R)} {m} : launch program [] m = m := rfl

@[simp] theorem launchCons {program : ι → (α → R) → (α → R)} {p rest m} :
    launch program (p :: rest) m = launch program rest (program p m) := rfl

/- What makes the programs of a launch independent: they write disjoint regions, touch nothing
else but scratch, and compute their region from cells that no other program of the launch writes.
The target says which value each cell of a region ends with. -/
structure Independent (program : ι → (α → R) → (α → R)) (order : List ι) (m : α → R)
    (scratch : α → Prop) (region : ι → α → Prop) (target : α → R → Prop) : Prop where
  nodup : order.Nodup
  apart : ∀ p ∈ order, ∀ q ∈ order, p ≠ q → ∀ a, region p a → ¬ region q a
  kept : ∀ p ∈ order, ∀ a, region p a → ¬ scratch a
  frame : ∀ p ∈ order, ∀ m' a, ¬ scratch a → ¬ region p a → program p m' a = m' a
  writes : ∀ p ∈ order, ∀ m', (∀ a, ¬ scratch a → (∀ q ∈ order, q ≠ p → ¬ region q a) → m' a = m a) →
    ∀ a, region p a → target a (program p m' a)

theorem launchFrame {program : ι → (α → R) → (α → R)} {order : List ι} {m : α → R} (scratch : α → Prop)
    (region : ι → α → Prop)
    (frame : ∀ p ∈ order, ∀ m' a, ¬ scratch a → ¬ region p a → program p m' a = m' a)
    {a} (kept : ¬ scratch a) (outside : ∀ p ∈ order, ¬ region p a) : launch program order m a = m a := by
  induction order generalizing m with
  | nil => rfl
  | cons p rest ih =>
      rw [launchCons, ih (fun q hq => frame q (List.mem_cons_of_mem p hq))
        (fun q hq => outside q (List.mem_cons_of_mem p hq))]
      exact frame p List.mem_cons_self m a kept (outside p List.mem_cons_self)

theorem launchWrites {program : ι → (α → R) → (α → R)} {order : List ι} {m : α → R} {scratch : α → Prop}
    {region : ι → α → Prop} {target : α → R → Prop} (ok : Independent program order m scratch region target)
    {p} (member : p ∈ order) {a} (inside : region p a) : target a (launch program order m a) := by
  -- the state before a suffix agrees with `m` on whatever the programs of that suffix read
  suffices loop : ∀ todo m', todo.Nodup → (∀ q ∈ todo, q ∈ order) →
      (∀ q ∈ todo, ∀ a, ¬ scratch a → (∀ r ∈ order, r ≠ q → ¬ region r a) → m' a = m a) →
      p ∈ todo → target a (launch program todo m' a) from
    loop order m ok.nodup (fun _ hq => hq) (fun _ _ _ _ _ => rfl) member
  intro todo
  induction todo with
  | nil => intro _ _ _ _ absent; simp at absent
  | cons q rest ih =>
      intro m' nodup subset fresh present
      have qIn : q ∈ order := subset q List.mem_cons_self
      have restIn : ∀ r ∈ rest, r ∈ order := fun r hr => subset r (List.mem_cons_of_mem q hr)
      have distinct : ∀ r ∈ rest, r ≠ q := fun r hr same =>
        (List.nodup_cons.mp nodup).1 (same ▸ hr)
      rw [launchCons]
      rcases List.mem_cons.mp present with rfl | later
      · rw [launchFrame scratch region (fun r hr => ok.frame r (restIn r hr)) (ok.kept p qIn a inside)
          (fun r hr => ok.apart p qIn r (restIn r hr) (distinct r hr).symm a inside)]
        exact ok.writes p qIn m' (fresh p List.mem_cons_self) a inside
      · refine ih _ (List.nodup_cons.mp nodup).2 restIn ?_ later
        intro r hr b kept unread
        rw [ok.frame q qIn m' b kept (unread q qIn (distinct r hr).symm)]
        exact fresh r (List.mem_cons_of_mem q hr) b kept unread

/- Disjoint blocks of distinct addresses, concatenated. -/
theorem flatMapAddresses {order : List ι} (addresses : ι → List α) (region : ι → α → Prop)
    (nodup : order.Nodup)
    (apart : ∀ p ∈ order, ∀ q ∈ order, p ≠ q → ∀ a, region p a → ¬ region q a)
    (each : ∀ p ∈ order, (addresses p).Nodup ∧ ∀ a, a ∈ addresses p ↔ region p a) :
    (order.flatMap addresses).Nodup ∧
      ∀ a, a ∈ order.flatMap addresses ↔ ∃ p ∈ order, region p a := by
  constructor
  · rw [List.nodup_flatMap]
    refine ⟨fun p hp => (each p hp).1, nodup.imp_of_mem ?_⟩
    intro p q hp hq distinct a first second
    exact apart p hp q hq distinct a (((each p hp).2 a).mp first) (((each q hq).2 a).mp second)
  · intro a
    rw [List.mem_flatMap]
    exact ⟨fun ⟨p, hp, h⟩ => ⟨p, hp, ((each p hp).2 a).mp h⟩,
      fun ⟨p, hp, h⟩ => ⟨p, hp, ((each p hp).2 a).mpr h⟩⟩

end FlagFft.Library.Stores
