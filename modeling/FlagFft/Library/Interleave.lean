import Mathlib.Logic.Relation
import Mathlib.Data.Set.Insert
import Mathlib.Data.List.Nodup
import Mathlib.Logic.Function.Basic

/-! Programs of one launch whose single loads and stores interleave in any way. A program loads into registers of its
own, every address once, and stores after its last load. -/
namespace FlagFft.Library.Interleave

variable {ι α R : Type*}

/- A store is an address and its value as a function of what was loaded. -/
structure Program (α R : Type*) where
  loads : List α
  stores : List (α × ((α → R) → R))

structure State (ι α R : Type*) where
  memory : α → R
  seen : ι → α → R
  loaded : ι → Set α
  stored : ι → Set α

namespace Program

def targets (program : Program α R) : List α := program.stores.map Prod.fst

/- A program computes its values from its loads and stores an address once. -/
structure Sound (program : Program α R) : Prop where
  once : program.targets.Nodup
  known : ∀ entry ∈ program.stores, ∀ seen seen' : α → R,
    (∀ a ∈ program.loads, seen a = seen' a) → entry.2 seen = entry.2 seen'

end Program

section Steps
variable [DecidableEq ι] [DecidableEq α] (program : ι → Program α R) (programs : List ι)

def State.load (s : State ι α R) (p : ι) (a : α) : State ι α R :=
  { s with
    seen := Function.update s.seen p (Function.update (s.seen p) a (s.memory a))
    loaded := Function.update s.loaded p (insert a (s.loaded p)) }

def State.store (s : State ι α R) (p : ι) (entry : α × ((α → R) → R)) : State ι α R :=
  { s with
    memory := Function.update s.memory entry.1 (entry.2 (s.seen p))
    stored := Function.update s.stored p (insert entry.1 (s.stored p)) }

inductive Step : State ι α R → State ι α R → Prop where
  | load {s : State ι α R} (p : ι) (a : α) : p ∈ programs → a ∈ (program p).loads → a ∉ s.loaded p → Step s (s.load p a)
  | store {s : State ι α R} (p : ι) (entry : α × ((α → R) → R)) : p ∈ programs → entry ∈ (program p).stores →
      entry.1 ∉ s.stored p → (∀ a ∈ (program p).loads, a ∈ s.loaded p) → Step s (s.store p entry)

def Reaches : State ι α R → State ι α R → Prop := Relation.ReflTransGen (Step program programs)

/- Before the launch the registers hold anything. -/
structure Fresh (s : State ι α R) (m : α → R) : Prop where
  memory : s.memory = m
  loaded : ∀ p, s.loaded p = ∅
  stored : ∀ p, s.stored p = ∅

def Finished (s : State ι α R) : Prop := ∀ p ∈ programs, ∀ a ∈ (program p).targets, a ∈ s.stored p

/- Every complete interleaving ends in a memory that is as wanted. -/
def Always (m : α → R) (wanted : (α → R) → Prop) : Prop :=
  ∀ s s', Fresh s m → Reaches program programs s s' → Finished program programs s' → wanted s'.memory

/- No program stores what another loads or stores. -/
def RaceFree : Prop :=
  ∀ p ∈ programs, ∀ q ∈ programs, p ≠ q → ∀ a ∈ (program p).targets, a ∉ (program q).loads ∧ a ∉ (program q).targets

end Steps

section Safety
variable [DecidableEq ι] [DecidableEq α] {program : ι → Program α R} {programs : List ι} {m : α → R}

omit [DecidableEq α] in
theorem memAdded {sets : ι → Set α} {p q : ι} {a b : α} :
    a ∈ Function.update sets p (insert b (sets p)) q ↔ (q = p ∧ a = b) ∨ a ∈ sets q := by
  by_cases same : q = p
  · subst same
    simp
  · simp [same]

theorem loadOther {s : State ι α R} {p q : ι} {a b : α} (other : ¬ (q = p ∧ b = a)) :
    (s.load p a).seen q b = s.seen q b := by
  by_cases same : q = p
  · subst same
    have apart : b ≠ a := fun here => other ⟨rfl, here⟩
    simp only [State.load, Function.update_self, Function.update_of_ne apart]
  · simp only [State.load, Function.update_of_ne same]

/- What was loaded is what the launch began with, and so is every address that is not stored yet. -/
structure Clean (program : ι → Program α R) (programs : List ι) (m : α → R) (s : State ι α R) : Prop where
  registers : ∀ p ∈ programs, ∀ a ∈ s.loaded p, s.seen p a = m a
  complete : ∀ p ∈ programs, ∀ a ∈ s.stored p, ∀ b ∈ (program p).loads, b ∈ s.loaded p
  written : ∀ p ∈ programs, ∀ entry ∈ (program p).stores, entry.1 ∈ s.stored p → s.memory entry.1 = entry.2 m
  kept : ∀ a, (∀ p ∈ programs, a ∉ s.stored p) → s.memory a = m a
  own : ∀ p ∈ programs, ∀ a ∈ s.stored p, a ∈ (program p).targets

omit [DecidableEq ι] [DecidableEq α] in
theorem freshClean {s : State ι α R} (fresh : Fresh s m) : Clean program programs m s where
  registers := fun p _ a inside => by simp [fresh.loaded p] at inside
  complete := fun p _ a inside => by simp [fresh.stored p] at inside
  written := fun p _ entry _ inside => by simp [fresh.stored p] at inside
  kept := fun a _ => by rw [fresh.memory]
  own := fun p _ a inside => by simp [fresh.stored p] at inside

theorem loadClean {s : State ι α R} (free : RaceFree program programs) (clean : Clean program programs m s) {p : ι} {a : α}
    (member : p ∈ programs) (loads : a ∈ (program p).loads) (pending : a ∉ s.loaded p) :
    Clean program programs m (s.load p a) := by
  -- nobody has stored the address: another program never does, and this one still loads
  have original : s.memory a = m a := by
    refine clean.kept a fun q inside stored => ?_
    by_cases same : q = p
    · subst same
      exact pending (clean.complete q inside a stored a loads)
    · exact (free q inside p member same a (clean.own q inside a stored)).1 loads
  refine ⟨fun q inside b loaded => ?_, fun q inside b stored c known => ?_, clean.written, clean.kept, clean.own⟩
  · rcases memAdded.mp loaded with ⟨rfl, rfl⟩ | before
    · simp only [State.load, Function.update_self, original]
    · rw [@loadOther _ _ _ _ _ s p q a b fun ⟨same, here⟩ => pending (same ▸ here ▸ before)]
      exact clean.registers q inside b before
  · exact memAdded.mpr (.inr (clean.complete q inside b stored c known))

theorem storeClean {s : State ι α R} (sound : ∀ p ∈ programs, (program p).Sound) (free : RaceFree program programs)
    (clean : Clean program programs m s) {p : ι} {entry : α × ((α → R) → R)} (member : p ∈ programs)
    (stores : entry ∈ (program p).stores) (loaded : ∀ a ∈ (program p).loads, a ∈ s.loaded p) :
    Clean program programs m (s.store p entry) := by
  have target : entry.1 ∈ (program p).targets := List.mem_map_of_mem stores
  have value : entry.2 (s.seen p) = entry.2 m :=
    (sound p member).known entry stores _ _ fun a known => clean.registers p member a (loaded a known)
  refine ⟨clean.registers, fun q inside b stored c known => ?_, fun q inside other listed stored => ?_,
    fun a untouched => ?_, fun q inside b stored => ?_⟩
  · rcases memAdded.mp stored with ⟨rfl, _⟩ | before
    · exact loaded c known
    · exact clean.complete q inside b before c known
  · simp only [State.store]
    rcases memAdded.mp stored with ⟨rfl, here⟩ | before
    · rw [List.inj_on_of_nodup_map (sound q inside).once listed stores here, Function.update_self, value]
    · by_cases here : other.1 = entry.1
      · have same : q = p := by
          by_contra different
          exact (free q inside p member different other.1 (List.mem_map_of_mem listed)).2 (here ▸ target)
        subst same
        rw [List.inj_on_of_nodup_map (sound q inside).once listed stores here, Function.update_self, value]
      · rw [Function.update_of_ne here]
        exact clean.written q inside other listed before
  · have here : a ≠ entry.1 := fun here => untouched p member (memAdded.mpr (.inl ⟨rfl, here⟩))
    simp only [State.store, Function.update_of_ne here]
    exact clean.kept a fun q inside stored => untouched q inside (memAdded.mpr (.inr stored))
  · rcases memAdded.mp stored with ⟨rfl, rfl⟩ | before
    · exact target
    · exact clean.own q inside b before

theorem reachesClean {s s' : State ι α R} (sound : ∀ p ∈ programs, (program p).Sound) (free : RaceFree program programs)
    (clean : Clean program programs m s) (run : Reaches program programs s s') : Clean program programs m s' := by
  induction run with
  | refl => exact clean
  | tail _ step ih =>
      cases step with
      | load p a member loads pending => exact loadClean free ih member loads pending
      | store p entry member stores _ loaded => exact storeClean sound free ih member stores loaded

/- Without races every interleaving stores what the memory before the launch says. -/
theorem raceFreeAlways (sound : ∀ p ∈ programs, (program p).Sound) (free : RaceFree program programs) :
    Always program programs m fun final => ∀ p ∈ programs, ∀ entry ∈ (program p).stores, final entry.1 = entry.2 m := by
  intro s s' fresh run finished p member entry stores
  exact (reachesClean sound free (freshClean fresh) run).written p member entry stores
    (finished p member entry.1 (List.mem_map_of_mem stores))

end Safety

section Serial
variable [DecidableEq ι] [DecidableEq α] {program : ι → Program α R} {programs : List ι}

/- One program alone. -/
def Program.run (program : Program α R) (m : α → R) : α → R :=
  program.stores.foldl (fun memory entry => Function.update memory entry.1 (entry.2 m)) m

theorem runUntouched {stores : List (α × ((α → R) → R))} {m memory : α → R} {a : α} (outside : a ∉ stores.map Prod.fst) :
    stores.foldl (fun memory entry => Function.update memory entry.1 (entry.2 m)) memory a = memory a := by
  induction stores generalizing memory with
  | nil => rfl
  | cons entry rest ih =>
      rw [List.map_cons, List.mem_cons, not_or] at outside
      rw [List.foldl_cons, ih outside.2, Function.update_of_ne outside.1]

theorem runStored {stores : List (α × ((α → R) → R))} {m memory : α → R} (once : (stores.map Prod.fst).Nodup)
    {entry : α × ((α → R) → R)} (listed : entry ∈ stores) :
    stores.foldl (fun memory entry => Function.update memory entry.1 (entry.2 m)) memory entry.1 = entry.2 m := by
  induction stores generalizing memory with
  | nil => simp at listed
  | cons first rest ih =>
      rw [List.map_cons, List.nodup_cons] at once
      rw [List.foldl_cons]
      rcases List.mem_cons.mp listed with rfl | later
      · rw [runUntouched once.1, Function.update_self]
      · exact ih once.2 later

theorem runOutside {program : Program α R} {m : α → R} {a : α} (outside : a ∉ program.targets) :
    program.run m a = m a := runUntouched outside

theorem runInside {program : Program α R} (sound : program.Sound) {m : α → R} {entry : α × ((α → R) → R)}
    (listed : entry ∈ program.stores) : program.run m entry.1 = entry.2 m := runStored sound.once listed

/- What the steps of one program leave alone. -/
structure Aside (p : ι) (s s' : State ι α R) : Prop where
  loaded : ∀ q, q ≠ p → s'.loaded q = s.loaded q
  stored : ∀ q, q ≠ p → s'.stored q = s.stored q

omit [DecidableEq ι] [DecidableEq α] in
theorem Aside.trans {p : ι} {s s' s'' : State ι α R} (first : Aside p s s') (second : Aside p s' s'') : Aside p s s'' where
  loaded := fun q other => (second.loaded q other).trans (first.loaded q other)
  stored := fun q other => (second.stored q other).trans (first.stored q other)

theorem loadAside {p : ι} {a : α} {s : State ι α R} : Aside p s (s.load p a) where
  loaded := fun q other => by simp only [State.load, Function.update_of_ne other]
  stored := fun _ _ => rfl

theorem storeAside {p : ι} {entry : α × ((α → R) → R)} {s : State ι α R} : Aside p s (s.store p entry) where
  loaded := fun _ _ => rfl
  stored := fun q other => by simp only [State.store, Function.update_of_ne other]

/- A program that has not stored may load the rest of its addresses. -/
theorem loadsReach {p : ι} (member : p ∈ programs) (todo : List α) {s : State ι α R}
    (listed : ∀ a ∈ todo, a ∈ (program p).loads) (current : ∀ a ∈ s.loaded p, s.seen p a = s.memory a) :
    ∃ s', Reaches program programs s s' ∧ Aside p s s' ∧ s'.memory = s.memory ∧ s'.stored p = s.stored p ∧
      (∀ a ∈ s.loaded p, a ∈ s'.loaded p) ∧ (∀ a ∈ todo, a ∈ s'.loaded p) ∧ ∀ a ∈ s'.loaded p, s'.seen p a = s.memory a := by
  induction todo generalizing s with
  | nil => exact ⟨s, .refl, ⟨fun _ _ => rfl, fun _ _ => rfl⟩, rfl, rfl, fun _ inside => inside, by simp, current⟩
  | cons a rest ih =>
      have tail : ∀ b ∈ rest, b ∈ (program p).loads := fun b inside => listed b (List.mem_cons_of_mem a inside)
      by_cases before : a ∈ s.loaded p
      · obtain ⟨s', run, aside, memory, stored, kept, loaded, seen⟩ := ih tail current
        refine ⟨s', run, aside, memory, stored, kept, fun b inside => ?_, seen⟩
        rcases List.mem_cons.mp inside with rfl | later
        · exact kept b before
        · exact loaded b later
      · have now : ∀ b ∈ (s.load p a).loaded p, (s.load p a).seen p b = (s.load p a).memory b := by
          intro b inside
          rcases memAdded.mp inside with ⟨_, rfl⟩ | known
          · simp only [State.load, Function.update_self]
          · rw [@loadOther _ _ _ _ _ s p p a b fun ⟨_, here⟩ => before (here ▸ known)]
            exact current b known
        obtain ⟨s', run, aside, memory, stored, kept, loaded, seen⟩ := ih tail now
        refine ⟨s', .head (.load p a member (listed a List.mem_cons_self) before) run, loadAside.trans aside, memory, stored,
          fun b inside => kept b (memAdded.mpr (.inr inside)), fun b inside => ?_, seen⟩
        rcases List.mem_cons.mp inside with rfl | later
        · exact kept b (memAdded.mpr (.inl ⟨rfl, rfl⟩))
        · exact loaded b later

/- A program that has loaded everything may store the rest of its addresses. -/
theorem storesReach {p : ι} (member : p ∈ programs) (todo : List (α × ((α → R) → R))) {s : State ι α R} {m : α → R}
    (listed : ∀ entry ∈ todo, entry ∈ (program p).stores) (once : (todo.map Prod.fst).Nodup)
    (pending : ∀ entry ∈ todo, entry.1 ∉ s.stored p) (loaded : ∀ a ∈ (program p).loads, a ∈ s.loaded p)
    (values : ∀ entry ∈ todo, entry.2 (s.seen p) = entry.2 m) :
    ∃ s', Reaches program programs s s' ∧ Aside p s s' ∧
      s'.memory = todo.foldl (fun memory entry => Function.update memory entry.1 (entry.2 m)) s.memory ∧
      (∀ a ∈ s.stored p, a ∈ s'.stored p) ∧ ∀ entry ∈ todo, entry.1 ∈ s'.stored p := by
  induction todo generalizing s with
  | nil => exact ⟨s, .refl, ⟨fun _ _ => rfl, fun _ _ => rfl⟩, rfl, fun _ inside => inside, by simp⟩
  | cons entry rest ih =>
      rw [List.map_cons, List.nodup_cons] at once
      have later : ∀ other ∈ rest, other.1 ∉ (s.store p entry).stored p := by
        intro other inside stored
        rcases memAdded.mp stored with ⟨_, here⟩ | before
        · exact once.1 (here ▸ List.mem_map_of_mem inside)
        · exact pending other (List.mem_cons_of_mem entry inside) before
      obtain ⟨s', run, aside, memory, kept, stored⟩ :=
        @ih (s.store p entry) (fun other inside => listed other (List.mem_cons_of_mem entry inside)) once.2 later loaded
          fun other inside => values other (List.mem_cons_of_mem entry inside)
      refine ⟨s', .head (.store p entry member (listed entry List.mem_cons_self) (pending entry List.mem_cons_self) loaded) run,
        storeAside.trans aside, ?_, fun b inside => kept b (memAdded.mpr (.inr inside)), fun other inside => ?_⟩
      · rw [memory, List.foldl_cons, ← values entry List.mem_cons_self]
        rfl
      · rcases List.mem_cons.mp inside with rfl | after
        · exact kept _ (memAdded.mpr (.inl ⟨rfl, rfl⟩))
        · exact stored other after

/- A program that has not begun may run to its end before any other goes on. -/
theorem programReaches {p : ι} (member : p ∈ programs) (sound : (program p).Sound) {s : State ι α R}
    (unloaded : s.loaded p = ∅) (unstored : s.stored p = ∅) :
    ∃ s', Reaches program programs s s' ∧ Aside p s s' ∧ s'.memory = (program p).run s.memory ∧
      ∀ a ∈ (program p).targets, a ∈ s'.stored p := by
  obtain ⟨middle, loading, first, same, none, _, loaded, seen⟩ :=
    loadsReach member (program p).loads (fun _ inside => inside) (s := s) (by simp [unloaded])
  obtain ⟨s', storing, second, memory, _, stored⟩ :=
    @storesReach ι α R _ _ program programs p member (program p).stores middle s.memory (fun _ inside => inside) sound.once
      (by simp [none, unstored]) loaded
      fun entry inside => sound.known entry inside _ _ fun a known => seen a (loaded a known)
  refine ⟨s', loading.trans storing, first.trans second, ?_, fun a inside => ?_⟩
  · rw [memory, same]
    rfl
  · obtain ⟨entry, listed, rfl⟩ := List.mem_map.mp inside
    exact stored entry listed

/- The programs one after another. -/
def serial (program : ι → Program α R) (order : List ι) (m : α → R) : α → R :=
  order.foldl (fun memory p => (program p).run memory) m

theorem serialReaches (order : List ι) {s : State ι α R} (sound : ∀ p ∈ programs, (program p).Sound)
    (listed : ∀ p ∈ order, p ∈ programs) (once : order.Nodup)
    (idle : ∀ p ∈ order, s.loaded p = ∅ ∧ s.stored p = ∅) :
    ∃ s', Reaches program programs s s' ∧ s'.memory = serial program order s.memory ∧
      (∀ p, p ∉ order → s'.stored p = s.stored p) ∧ ∀ p ∈ order, ∀ a ∈ (program p).targets, a ∈ s'.stored p := by
  induction order generalizing s with
  | nil => exact ⟨s, .refl, rfl, fun _ _ => rfl, by simp⟩
  | cons p rest ih =>
      rw [List.nodup_cons] at once
      have member := listed p List.mem_cons_self
      obtain ⟨begun, ready⟩ := idle p List.mem_cons_self
      obtain ⟨middle, first, aside, memory, done⟩ := programReaches member (sound p member) begun ready
      have other : ∀ q ∈ rest, q ≠ p := fun q inside same => once.1 (same ▸ inside)
      obtain ⟨s', later, result, kept, stored⟩ :=
        @ih middle (fun q inside => listed q (List.mem_cons_of_mem p inside)) once.2 fun q inside => by
          rw [aside.loaded q (other q inside), aside.stored q (other q inside)]
          exact idle q (List.mem_cons_of_mem p inside)
      refine ⟨s', first.trans later, by rw [result, memory]; rfl, fun q outside => ?_, fun q inside a target => ?_⟩
      · rw [List.mem_cons, not_or] at outside
        rw [kept q outside.2, aside.stored q outside.1]
      · rcases List.mem_cons.mp inside with rfl | after
        · rw [kept q once.1]
          exact done a target
        · exact stored q after a target

/- What always holds holds of the programs one after another. -/
theorem alwaysSerial {m : α → R} {wanted : (α → R) → Prop} (sound : ∀ p ∈ programs, (program p).Sound)
    (always : Always program programs m wanted) {order : List ι} (same : order.Perm programs) (once : order.Nodup) :
    wanted (serial program order m) := by
  obtain ⟨s', run, memory, _, stored⟩ :=
    @serialReaches ι α R _ _ program programs order ⟨m, fun _ => m, fun _ => ∅, fun _ => ∅⟩ sound
      (fun p inside => same.mem_iff.mp inside) once fun _ _ => ⟨rfl, rfl⟩
  rw [← memory]
  exact always _ s' ⟨rfl, fun _ => rfl, fun _ => rfl⟩ run fun p inside => stored p (same.mem_iff.mpr inside)

/- Later programs leave the targets of an earlier one, if they store elsewhere. -/
omit [DecidableEq ι] in
theorem serialKeeps {order : List ι} {m : α → R} {a : α} (outside : ∀ p ∈ order, a ∉ (program p).targets) :
    serial program order m a = m a := by
  induction order generalizing m with
  | nil => rfl
  | cons p rest ih =>
      change serial program rest ((program p).run m) a = m a
      rw [ih fun q inside => outside q (List.mem_cons_of_mem p inside), runOutside (outside p List.mem_cons_self)]

end Serial

end FlagFft.Library.Interleave
