import Mathlib.Order.Basic
import Mathlib.Data.List.Basic

/-! Programs with a state, exceptions and a bound on the depth of their recursion. A program ends when it returns or
throws; without fuel it has no outcome. An exception keeps what the program did to the state. -/
namespace FlagFft.Library.Fuel

def Program (ε σ α : Type) : Type := σ → Option (Except ε α × σ)

variable {ε σ α β : Type}

namespace Program

def pure (a : α) : Program ε σ α := fun s => some (.ok a, s)

def throw (e : ε) : Program ε σ α := fun s => some (.error e, s)

def bind (x : Program ε σ α) (next : α → Program ε σ β) : Program ε σ β := fun s =>
  match x s with
  | none => none
  | some (.error e, s') => some (.error e, s')
  | some (.ok a, s') => next a s'

/- try x catch (..) -/
def catching (x : Program ε σ α) (handler : ε → Program ε σ α) : Program ε σ α := fun s =>
  match x s with
  | some (.error e, s') => handler e s'
  | outcome => outcome

def get : Program ε σ σ := fun s => some (.ok s, s)

def modify (change : σ → σ) : Program ε σ Unit := fun s => some (.ok (), change s)

def outOfFuel : Program ε σ α := fun _ => none

def ofExcept : Except ε α → Program ε σ α
  | .ok a => pure a
  | .error e => throw e

/- A program on a part of the state. -/
def within {τ : Type} (part : σ → τ) (put : σ → τ → σ) (x : Program ε τ α) : Program ε σ α := fun s =>
  (x (part s)).map fun (outcome, t) => (outcome, put s t)

instance : Monad (Program ε σ) where
  pure := pure
  bind := bind

end Program

open Program

section Ending

/- It returns or throws from every state, and returns good values only. -/
def Ends (x : Program ε σ α) (good : α → Prop) : Prop := ∀ s, ∃ result s', x s = some (result, s') ∧ ∀ a, result = .ok a → good a

/- It returns a good value from every state. -/
def Succeeds (x : Program ε σ α) (good : α → Prop) : Prop := ∀ s, ∃ a s', x s = some (.ok a, s') ∧ good a

variable {x : Program ε σ α} {next : α → Program ε σ β} {good : α → Prop} {fine : β → Prop}

theorem Succeeds.ends (succeeds : Succeeds x good) : Ends x good := by
  intro s
  obtain ⟨a, s', run, ok⟩ := succeeds s
  refine ⟨.ok a, s', run, fun b same => ?_⟩
  cases same
  exact ok

theorem Ends.weaken {better : α → Prop} (ends : Ends x better) (weaker : ∀ a, better a → good a) : Ends x good := by
  intro s
  obtain ⟨result, s', run, ok⟩ := ends s
  exact ⟨result, s', run, fun a same => weaker a (ok a same)⟩

theorem Succeeds.weaken {better : α → Prop} (succeeds : Succeeds x better) (weaker : ∀ a, better a → good a) :
    Succeeds x good := by
  intro s
  obtain ⟨a, s', run, ok⟩ := succeeds s
  exact ⟨a, s', run, weaker a ok⟩

theorem succeedsPure {a : α} (ok : good a) : Succeeds (Pure.pure a : Program ε σ α) good := fun s => ⟨a, s, rfl, ok⟩

theorem endsPure {a : α} : Ends (Pure.pure a : Program ε σ α) fun _ => True := (succeedsPure trivial).ends

theorem endsThrow {e : ε} : Ends (throw e : Program ε σ α) good := fun s => ⟨.error e, s, rfl, fun _ same => nomatch same⟩

theorem succeedsGet : Succeeds (get : Program ε σ σ) fun _ => True := fun s => ⟨s, s, rfl, trivial⟩

theorem succeedsModify {change : σ → σ} : Succeeds (modify change : Program ε σ Unit) fun _ => True :=
  fun s => ⟨(), change s, rfl, trivial⟩

theorem endsBind (first : Ends x good) (then_ : ∀ a, good a → Ends (next a) fine) : Ends (x >>= next) fine := by
  intro s
  obtain ⟨result, s', run, ok⟩ := first s
  cases result with
  | error e => exact ⟨.error e, s', by simp only [Bind.bind, Program.bind, run], fun a same => nomatch same⟩
  | ok a =>
      obtain ⟨result', s'', run', ok'⟩ := then_ a (ok a rfl) s'
      exact ⟨result', s'', by simp only [Bind.bind, Program.bind, run, run'], ok'⟩

theorem succeedsBind (first : Succeeds x good) (then_ : ∀ a, good a → Succeeds (next a) fine) :
    Succeeds (x >>= next) fine := by
  intro s
  obtain ⟨a, s', run, ok⟩ := first s
  obtain ⟨b, s'', run', ok'⟩ := then_ a ok s'
  exact ⟨b, s'', by simp only [Bind.bind, Program.bind, run, run'], ok'⟩

theorem endsCatching {handler : ε → Program ε σ α} (body : Ends x good) (handled : ∀ e, Ends (handler e) good) :
    Ends (catching x handler) good := by
  intro s
  obtain ⟨result, s', run, ok⟩ := body s
  cases result with
  | error e =>
      obtain ⟨result', s'', run', ok'⟩ := handled e s'
      exact ⟨result', s'', by simp only [catching, run, run'], ok'⟩
  | ok a => exact ⟨.ok a, s', by simp only [catching, run], ok⟩

theorem succeedsCatching {handler : ε → Program ε σ α} (body : Ends x good) (handled : ∀ e, Succeeds (handler e) good) :
    Succeeds (catching x handler) good := by
  intro s
  obtain ⟨result, s', run, ok⟩ := body s
  cases result with
  | error e =>
      obtain ⟨a, s'', run', ok'⟩ := handled e s'
      exact ⟨a, s'', by simp only [catching, run, run'], ok'⟩
  | ok a => exact ⟨a, s', by simp only [catching, run], ok a rfl⟩

/- What never throws needs no handler. -/
theorem succeedsUncaught {handler : ε → Program ε σ α} (body : Succeeds x good) : Succeeds (catching x handler) good := by
  intro s
  obtain ⟨a, s', run, ok⟩ := body s
  exact ⟨a, s', by simp only [catching, run], ok⟩

theorem endsOfExcept {outcome : Except ε α} (ok : ∀ a, outcome = .ok a → good a) :
    Ends (ofExcept outcome : Program ε σ α) good := by
  cases outcome with
  | ok a => exact (succeedsPure (ok a rfl)).ends
  | error e => exact endsThrow

section Loops
variable {step : β → α → Program ε σ β} {items : List α}

theorem endsLoop {keeps : β → Prop} (each : ∀ item ∈ items, ∀ acc, keeps acc → Ends (step acc item) keeps) {start : β}
    (begins : keeps start) : Ends (items.foldlM step start) keeps := by
  induction items generalizing start with
  | nil => exact (succeedsPure begins).ends
  | cons item rest ih =>
      rw [List.foldlM_cons]
      exact endsBind (each item List.mem_cons_self start begins) fun acc kept =>
        ih (fun other member => each other (List.mem_cons_of_mem item member)) kept

theorem succeedsLoop {keeps : β → Prop} (each : ∀ item ∈ items, ∀ acc, keeps acc → Succeeds (step acc item) keeps) {start : β}
    (begins : keeps start) : Succeeds (items.foldlM step start) keeps := by
  induction items generalizing start with
  | nil => exact succeedsPure begins
  | cons item rest ih =>
      rw [List.foldlM_cons]
      exact succeedsBind (each item List.mem_cons_self start begins) fun acc kept =>
        ih (fun other member => each other (List.mem_cons_of_mem item member)) kept

/- What one item brings about and no item undoes. -/
theorem succeedsLoopOnce {reached : β → Prop} (all : ∀ item ∈ items, ∀ acc, Succeeds (step acc item) fun _ => True)
    (keeps : ∀ item ∈ items, ∀ acc, reached acc → Succeeds (step acc item) reached) {item : α} (member : item ∈ items)
    (reaches : ∀ acc, Succeeds (step acc item) reached) {start : β} : Succeeds (items.foldlM step start) reached := by
  induction items generalizing start with
  | nil => simp at member
  | cons first rest ih =>
      rw [List.foldlM_cons]
      rcases List.mem_cons.mp member with rfl | later
      · exact succeedsBind (reaches start) fun acc ok =>
          succeedsLoop (fun other inside => keeps other (List.mem_cons_of_mem _ inside)) ok
      · exact succeedsBind (all first List.mem_cons_self start) fun acc _ =>
          ih (fun other inside => all other (List.mem_cons_of_mem _ inside))
            (fun other inside => keeps other (List.mem_cons_of_mem _ inside)) later

end Loops

end Ending

section Growth

/- Whatever the first has an outcome for, the second has the same outcome for. -/
def Below (x y : Program ε σ α) : Prop := ∀ s outcome, x s = some outcome → y s = some outcome

theorem belowSame (x : Program ε σ α) : Below x x := fun _ _ run => run

theorem belowOutOfFuel (x : Program ε σ α) : Below outOfFuel x := fun _ _ run => nomatch run

theorem belowBind {x y : Program ε σ α} {next next' : α → Program ε σ β} (first : Below x y)
    (then_ : ∀ a, Below (next a) (next' a)) : Below (x >>= next) (y >>= next') := by
  intro s outcome run
  simp only [Bind.bind, Program.bind] at run ⊢
  cases here : x s with
  | none => simp [here] at run
  | some pair =>
      obtain ⟨result, s'⟩ := pair
      rw [first s _ here]
      cases result with
      | error e => simpa only [here] using run
      | ok a => exact then_ a s' outcome (by simpa only [here] using run)

theorem belowCatching {x y : Program ε σ α} {handler handler' : ε → Program ε σ α} (body : Below x y)
    (handled : ∀ e, Below (handler e) (handler' e)) : Below (catching x handler) (catching y handler') := by
  intro s outcome run
  simp only [catching] at run ⊢
  cases here : x s with
  | none => simp [here] at run
  | some pair =>
      obtain ⟨result, s'⟩ := pair
      rw [body s _ here]
      cases result with
      | error e => exact handled e s' outcome (by simpa only [here] using run)
      | ok a => simpa only [here] using run

theorem belowLoop {step step' : β → α → Program ε σ β} {items : List α}
    (each : ∀ acc item, Below (step acc item) (step' acc item)) (start : β) :
    Below (items.foldlM step start) (items.foldlM step' start) := by
  induction items generalizing start with
  | nil => exact belowSame _
  | cons item rest ih =>
      rw [List.foldlM_cons, List.foldlM_cons]
      exact belowBind (each start item) fun acc => ih acc

/- With enough fuel there is one outcome, the same for all larger amounts. -/
def Terminates (run : ℕ → Program ε σ α) : Prop := ∀ s, ∃ outcome enough, ∀ fuel ≥ enough, run fuel s = some outcome

theorem belowLater {run : ℕ → Program ε σ α} (grows : ∀ fuel, Below (run fuel) (run (fuel + 1))) {fuel later : ℕ}
    (more : fuel ≤ later) : Below (run fuel) (run later) := by
  induction more with
  | refl => exact belowSame _
  | step _ ih => exact fun s outcome here => grows _ s outcome (ih s outcome here)

theorem endsTerminates {run : ℕ → Program ε σ α} {good : α → Prop} (grows : ∀ fuel, Below (run fuel) (run (fuel + 1)))
    {enough : ℕ} (ends : Ends (run enough) good) : Terminates run := by
  intro s
  obtain ⟨result, s', here, _⟩ := ends s
  exact ⟨(result, s'), enough, fun fuel more => belowLater grows more s _ here⟩

end Growth

section Invariants

/- From a state of the invariant, whatever the outcome, the invariant still holds, and what is returned is good. -/
def Sound (inv : σ → Prop) (x : Program ε σ α) (good : α → Prop) : Prop :=
  ∀ s result s', inv s → x s = some (result, s') → inv s' ∧ ∀ a, result = .ok a → good a

variable {inv : σ → Prop} {x : Program ε σ α} {next : α → Program ε σ β} {good : α → Prop} {fine : β → Prop}

theorem Sound.weaken {better : α → Prop} (sound : Sound inv x better) (weaker : ∀ a, better a → good a) : Sound inv x good := by
  intro s result s' holds run
  obtain ⟨kept, ok⟩ := sound s result s' holds run
  exact ⟨kept, fun a same => weaker a (ok a same)⟩

theorem soundPure {a : α} (ok : good a) : Sound inv (Pure.pure a : Program ε σ α) good := by
  intro s result s' holds run
  cases run
  exact ⟨holds, fun b same => by cases same; exact ok⟩

theorem soundThrow {e : ε} : Sound inv (throw e : Program ε σ α) good := by
  intro s result s' holds run
  cases run
  exact ⟨holds, fun b same => nomatch same⟩

theorem soundGet : Sound inv (get : Program ε σ σ) inv := by
  intro s result s' holds run
  cases run
  exact ⟨holds, fun b same => by cases same; exact holds⟩

theorem soundModify {change : σ → σ} (keeps : ∀ s, inv s → inv (change s)) :
    Sound inv (modify change : Program ε σ Unit) fun _ => True := by
  intro s result s' holds run
  cases run
  exact ⟨keeps s holds, fun _ _ => trivial⟩

theorem soundOutOfFuel : Sound inv (outOfFuel : Program ε σ α) good := fun _ _ _ _ run => nomatch run

theorem soundOfExcept {outcome : Except ε α} (ok : ∀ a, outcome = .ok a → good a) :
    Sound inv (ofExcept outcome : Program ε σ α) good := by
  cases outcome with
  | ok a => exact soundPure (ok a rfl)
  | error e => exact soundThrow

theorem soundBind (first : Sound inv x good) (then_ : ∀ a, good a → Sound inv (next a) fine) :
    Sound inv (x >>= next) fine := by
  intro s result s' holds run
  simp only [Bind.bind, Program.bind] at run
  cases here : x s with
  | none => simp [here] at run
  | some pair =>
      obtain ⟨outcome, between⟩ := pair
      obtain ⟨kept, ok⟩ := first s outcome between holds here
      cases outcome with
      | error e =>
          simp only [here, Option.some.injEq, Prod.mk.injEq] at run
          obtain ⟨rfl, rfl⟩ := run
          exact ⟨kept, fun b same => nomatch same⟩
      | ok a =>
          simp only [here] at run
          exact then_ a (ok a rfl) between result s' kept run

theorem soundCatching {handler : ε → Program ε σ α} (body : Sound inv x good) (handled : ∀ e, Sound inv (handler e) good) :
    Sound inv (catching x handler) good := by
  intro s result s' holds run
  simp only [catching] at run
  cases here : x s with
  | none => simp [here] at run
  | some pair =>
      obtain ⟨outcome, between⟩ := pair
      obtain ⟨kept, ok⟩ := body s outcome between holds here
      cases outcome with
      | error e =>
          simp only [here] at run
          exact handled e between result s' kept run
      | ok a =>
          simp only [here, Option.some.injEq, Prod.mk.injEq] at run
          obtain ⟨rfl, rfl⟩ := run
          exact ⟨kept, ok⟩

/- What holds of the items already done and the value so far. -/
theorem soundLoop {step : β → α → Program ε σ β} {items : List α} {keeps : List α → β → Prop}
    (each : ∀ done item acc, item ∈ items → keeps done acc → Sound inv (step acc item) (keeps (done ++ [item])))
    {done : List α} {start : β} (begins : keeps done start) : Sound inv (items.foldlM step start) (keeps (done ++ items)) := by
  induction items generalizing done start with
  | nil => exact soundPure (by simpa using begins)
  | cons item rest ih =>
      rw [List.foldlM_cons]
      refine soundBind (each done item start List.mem_cons_self begins) fun acc kept => ?_
      have after := ih (fun done other acc member => each done other acc (List.mem_cons_of_mem item member)) kept
      simpa only [List.append_assoc, List.singleton_append] using after

end Invariants

section Delivery

/- Both at once: from a state of the invariant there is an outcome, the invariant still holds, and what is returned is good. -/
def Delivers (inv : σ → Prop) (x : Program ε σ α) (good : α → Prop) : Prop :=
  ∀ s, inv s → ∃ result s', x s = some (result, s') ∧ inv s' ∧ ∀ a, result = .ok a → good a

variable {inv : σ → Prop} {x : Program ε σ α} {next : α → Program ε σ β} {good : α → Prop} {fine : β → Prop}

theorem delivers {any : α → Prop} (ends : Ends x any) (sound : Sound inv x good) : Delivers inv x good := by
  intro s holds
  obtain ⟨result, s', run, _⟩ := ends s
  obtain ⟨kept, ok⟩ := sound s result s' holds run
  exact ⟨result, s', run, kept, ok⟩

theorem Delivers.weaken {better : α → Prop} (inside : Delivers inv x better) (weaker : ∀ a, better a → good a) : Delivers inv x good := by
  intro s holds
  obtain ⟨result, s', run, kept, ok⟩ := inside s holds
  exact ⟨result, s', run, kept, fun a same => weaker a (ok a same)⟩

theorem deliversPure {a : α} (ok : good a) : Delivers inv (Pure.pure a : Program ε σ α) good :=
  delivers endsPure (soundPure ok)

theorem deliversThrow {e : ε} : Delivers inv (throw e : Program ε σ α) good :=
  delivers (@endsThrow ε σ α good e) soundThrow

theorem deliversGet : Delivers inv (get : Program ε σ σ) inv := delivers succeedsGet.ends soundGet

theorem deliversModify {change : σ → σ} (keeps : ∀ s, inv s → inv (change s)) :
    Delivers inv (modify change : Program ε σ Unit) fun _ => True :=
  delivers succeedsModify.ends (soundModify keeps)

theorem deliversOfExcept {outcome : Except ε α} (ok : ∀ a, outcome = .ok a → good a) :
    Delivers inv (ofExcept outcome : Program ε σ α) good :=
  delivers (endsOfExcept ok) (soundOfExcept ok)

theorem deliversBind (first : Delivers inv x good) (then_ : ∀ a, good a → Delivers inv (next a) fine) :
    Delivers inv (x >>= next) fine := by
  intro s holds
  obtain ⟨result, s', run, kept, ok⟩ := first s holds
  cases result with
  | error e => exact ⟨.error e, s', by simp only [Bind.bind, Program.bind, run], kept, fun a same => nomatch same⟩
  | ok a =>
      obtain ⟨result', s'', run', kept', ok'⟩ := then_ a (ok a rfl) s' kept
      exact ⟨result', s'', by simp only [Bind.bind, Program.bind, run, run'], kept', ok'⟩

theorem deliversLoop {step : β → α → Program ε σ β} {items : List α} {keeps : β → Prop}
    (each : ∀ item ∈ items, ∀ acc, keeps acc → Delivers inv (step acc item) keeps) {start : β} (begins : keeps start) :
    Delivers inv (items.foldlM step start) keeps := by
  induction items generalizing start with
  | nil => exact deliversPure begins
  | cons item rest ih =>
      rw [List.foldlM_cons]
      exact deliversBind (each item List.mem_cons_self start begins) fun acc kept =>
        ih (fun other member => each other (List.mem_cons_of_mem item member)) kept

theorem deliversWithin {τ : Type} {part : σ → τ} {put : σ → τ → σ} {inner : τ → Prop} {y : Program ε τ α}
    (inside : Delivers inner y good) (has : ∀ s, inv s → inner (part s)) (keeps : ∀ s t, inv s → inner t → inv (put s t)) :
    Delivers inv (within part put y) good := by
  intro s holds
  obtain ⟨result, t, run, kept, ok⟩ := inside (part s) (has s holds)
  exact ⟨result, put s t, by rw [within, run]; rfl, keeps s t holds kept, ok⟩

end Delivery

end FlagFft.Library.Fuel
