import FlagFft.Batch

/-! What compiled nodes work on: device memory and the flags by which they remember what they have precomputed. A
program keeps an invariant of the buffers its node owns, and turns the rows of a batch into their images. -/
namespace FlagFft.Compiled
open Library.Indexing

/- `ready` is the b_fft_ready of the node that owns a buffer. -/
structure State (R : Type*) where
  memory : Memory R
  ready : ℕ → Bool

abbrev Program (R : Type*) := State R → Except Failure (State R)

/- An operation on memory alone. -/
def onMemory {R : Type*} (op : Memory R → Except Failure (Memory R)) : Program R := fun s =>
  (op s.memory).map fun m => { s with memory := m }

def chunkPrograms {R : Type*} (body : ℕ → ℕ → Program R) (batch chunk : ℕ) : Program R := fun s =>
  (batchChunks batch chunk).foldlM (fun s (offset, count) => body offset count s) s

/- The destination rows hold the images of the source rows; what is owned may hold anything, the rest is kept. -/
structure Turned {R : Type*} (own : ℕ → Prop) (src dst : Layout) (nOut rows : ℕ) (row : (ℕ → R) → ℕ → R)
    (s s' : State R) : Prop where
  writes : ∀ b < rows, ∀ k < nOut, s'.memory (dst b k) = row (fun j => s.memory (src b j)) k
  frame : ∀ a, ¬ own a.buffer → (∀ b < rows, ∀ k < nOut, a ≠ dst b k) → s'.memory a = s.memory a
  flags : ∀ i, ¬ own i → s'.ready i = s.ready i

def Performs {R : Type*} (program : Program R) (good : State R → Prop) (own : ℕ → Prop) (src dst : Layout)
    (nOut rows : ℕ) (row : (ℕ → R) → ℕ → R) : Prop :=
  ∀ s, good s → ∃ s', program s = .ok s' ∧ good s' ∧ Turned own src dst nOut rows row s s'

section Programs
variable {R : Type*} {program next : Program R} {good : State R → Prop} {own wider : ℕ → Prop} {src mid dst : Layout}
  {nIn nMid nOut rows : ℕ} {f g : (ℕ → R) → ℕ → R}

theorem Turned.comp {s s' s'' : State R} (one : Turned own src mid nMid rows f s s')
    (two : Turned own mid dst nOut rows g s' s'') (rowLocal : RowLocal nMid nOut g)
    (middle : ∀ b < rows, ∀ j < nMid, own (mid b j).buffer) : Turned own src dst nOut rows (fun x => g (f x)) s s'' where
  writes b hb k hk := by
    rw [two.writes b hb k hk]
    exact rowLocal _ _ (fun j hj => one.writes b hb j hj) k hk
  frame a kept outside := by
    rw [two.frame a kept outside]
    exact one.frame a kept fun b hb j hj same => kept (same ▸ middle b hb j hj)
  flags i kept := (two.flags i kept).trans (one.flags i kept)

theorem Performs.comp (one : Performs program good own src mid nMid rows f)
    (two : Performs next good own mid dst nOut rows g) (rowLocal : RowLocal nMid nOut g)
    (middle : ∀ b < rows, ∀ j < nMid, own (mid b j).buffer) :
    Performs (fun s => program s >>= next) good own src dst nOut rows (fun x => g (f x)) := by
  intro s start
  obtain ⟨s', first, start', turned⟩ := one s start
  obtain ⟨s'', second, start'', turned'⟩ := two s' start'
  refine ⟨s'', ?_, start'', turned.comp turned' rowLocal middle⟩
  change program s >>= next = _
  rw [first]
  exact second

theorem Performs.congr (ok : Performs program good own src dst nOut rows f) (same : ∀ x, ∀ k < nOut, f x k = g x k) :
    Performs program good own src dst nOut rows g := by
  intro s start
  obtain ⟨s', run, start', turned⟩ := ok s start
  exact ⟨s', run, start', fun b hb k hk => (turned.writes b hb k hk).trans (same _ k hk), turned.frame, turned.flags⟩

/- A part of a node runs: its own invariant is part of the node's, and the rest of the node's is not touched. -/
theorem Performs.within {all : State R → Prop} (ok : Performs program good own src dst nOut rows f)
    (part : ∀ s, all s → good s) (sub : ∀ i, own i → wider i)
    (keeps : ∀ s s', all s → good s' → Turned own src dst nOut rows f s s' → all s') :
    Performs program all wider src dst nOut rows f := by
  intro s start
  obtain ⟨s', run, start', turned⟩ := ok s (part s start)
  exact ⟨s', run, keeps s s' start start' turned, turned.writes,
    fun a kept outside => turned.frame a (fun inner => kept (sub _ inner)) outside,
    fun i kept => turned.flags i fun inner => kept (sub i inner)⟩

theorem LayoutMap.turned {op : Memory R → Memory R} {scratch : Address → Prop}
    (map : LayoutMap op scratch src dst nOut rows f) (inside : ∀ a, scratch a → own a.buffer) (s : State R) :
    Turned own src dst nOut rows f s { s with memory := op s.memory } where
  writes := map.writes s.memory
  frame a kept outside := map.frame s.memory a (fun inner => kept (inside a inner)) outside
  flags _ _ := rfl

/- An operation on memory that never fails, where the invariant holds of what is left. -/
theorem LayoutRun.performs {op : Memory R → Except Failure (Memory R)} {scratch : Address → Prop}
    (run : LayoutRun op scratch src dst nOut rows f) (inside : ∀ a, scratch a → own a.buffer)
    (keeps : ∀ s s', good s → s'.ready = s.ready →
      (∀ a, ¬ scratch a → (∀ b < rows, ∀ k < nOut, a ≠ dst b k) → s'.memory a = s.memory a) → good s') :
    Performs (onMemory op) good own src dst nOut rows f := by
  obtain ⟨result, returns, map⟩ := run
  intro s start
  refine ⟨{ s with memory := result s.memory }, ?_, ?_, LayoutMap.turned map inside s⟩
  · rw [onMemory, returns]
    rfl
  · exact keeps s _ start rfl fun a kept outside => map.frame s.memory a kept outside

theorem Turned.regroup {src' dst' : Layout} {n group : ℕ} {s s' : State R} (grouping : Grouping group n nOut)
    (gather : ℕ → ℕ → ℕ) (turned : Turned own src' dst' n (rows * group) f s s')
    (source : ∀ b, ∀ i < group, ∀ j, src' (b * group + i) j = src b (gather i j))
    (target : ∀ b, ∀ i < group, ∀ k, dst' (b * group + i) k = dst b (grouping.place i k)) :
    Turned own src dst nOut rows (grouping.row gather f) s s' where
  writes b hb o ho := by
    obtain ⟨short, element, here⟩ := grouping.member o ho
    have written := turned.writes (b * group + grouping.short o) (mulAddLt hb short) (grouping.element o) element
    rw [target b _ short, here] at written
    rw [written, Grouping.row]
    simp only [source b _ short]
  frame a kept outside := by
    refine turned.frame a kept fun b hb k hk same => ?_
    have several : 0 < group := Nat.pos_of_mul_pos_left (Nat.zero_lt_of_lt hb)
    have short := Nat.mod_lt b several
    refine outside (b / group) (Nat.div_lt_of_lt_mul (by rwa [Nat.mul_comm] at hb)) _
      (grouping.inside _ short k hk) (same.trans ?_)
    rw [← target _ _ short, Nat.mul_comm (b / group), Nat.div_add_mod]
  flags := turned.flags

theorem Performs.regroup {src' dst' : Layout} {n group : ℕ} (grouping : Grouping group n nOut) (gather : ℕ → ℕ → ℕ)
    (ok : Performs program good own src' dst' n (rows * group) f)
    (source : ∀ b, ∀ i < group, ∀ j, src' (b * group + i) j = src b (gather i j))
    (target : ∀ b, ∀ i < group, ∀ k, dst' (b * group + i) k = dst b (grouping.place i k)) :
    Performs program good own src dst nOut rows (grouping.row gather f) := by
  intro s start
  obtain ⟨s', run, start', turned⟩ := ok s start
  exact ⟨s', run, start', turned.regroup grouping gather source target⟩

end Programs

section Chunks
variable {R : Type*} {body : ℕ → ℕ → Program R} {good : State R → Prop} {own : ℕ → Prop} {src dst : Layout}
  {nIn nOut batch chunk : ℕ} {row : (ℕ → R) → ℕ → R}

theorem chunkProgramsStep {s : State R} {i : ℕ} :
    (List.range (i + 1)).foldlM (fun s i => body (i * chunk) (min chunk (batch - i * chunk)) s) s =
      ((List.range i).foldlM (fun s i => body (i * chunk) (min chunk (batch - i * chunk)) s) s >>= fun s =>
        body (i * chunk) (min chunk (batch - i * chunk)) s) := by
  rw [List.range_succ, List.foldlM_append]
  simp only [List.foldlM_cons, List.foldlM_nil, bind_pure]

/- Chunk by chunk: the rows before the next chunk are done, those from it on are as they were. -/
theorem Performs.chunked (positive : 0 < batch → 0 < chunk) (rowLocal : RowLocal nIn nOut row)
    (distinct : dst.Injective nOut batch)
    (aliasing : ∀ b < batch, ∀ b' < batch, b ≠ b' → ∀ j < nIn, ∀ k < nOut, src b j ≠ dst b' k)
    (sources : ∀ b < batch, ∀ j < nIn, ¬ own (src b j).buffer) (targets : ∀ b < batch, ∀ k < nOut, ¬ own (dst b k).buffer)
    (each : ∀ offset count, offset + count ≤ batch → count ≤ chunk →
      Performs (body offset count) good own (src.from offset) (dst.from offset) nOut count row) :
    Performs (chunkPrograms body batch chunk) good own src dst nOut batch row := by
  intro s start
  have loop : ∀ i ≤ ceilDiv batch chunk, ∃ s',
      (List.range i).foldlM (fun s i => body (i * chunk) (min chunk (batch - i * chunk)) s) s = .ok s' ∧ good s' ∧
        Turned own src dst nOut (min (i * chunk) batch) row s s' := by
    intro i
    induction i with
    | zero =>
      intro _
      refine ⟨s, rfl, start, fun b hb => ?_, fun _ _ _ => rfl, fun _ _ => rfl⟩
      rw [Nat.zero_mul] at hb
      omega
    | succ i ih =>
      intro inside
      obtain ⟨s', before, good', turned⟩ := ih (by omega)
      have fits := chunkFits (show i < ceilDiv batch chunk by omega)
      have first : i * chunk < batch := (ltCeilDiv (chunkPositive (show i < ceilDiv batch chunk by omega))).mp (by omega)
      have reach : min ((i + 1) * chunk) batch = i * chunk + min chunk (batch - i * chunk) := by
        rw [Nat.succ_mul]
        omega
      obtain ⟨s'', run, good'', turned'⟩ := each _ _ fits (min_le_left _ _) s' good'
      refine ⟨s'', ?_, good'', ?_, ?_, fun j kept => (turned'.flags j kept).trans (turned.flags j kept)⟩
      · rw [chunkProgramsStep, before]
        exact run
      · intro b hb k hk
        rw [reach] at hb
        rcases Nat.lt_or_ge b (i * chunk) with early | late
        · -- a row of an earlier chunk
          have kept := turned'.frame (dst b k) (targets b (by omega) k hk) fun b' hb' k' hk' same => by
            have rows := (distinct b (by omega) _ (by omega) k hk k' hk' same).1
            omega
          rw [kept]
          exact turned.writes b (by omega) k hk
        · obtain ⟨r, rfl⟩ := Nat.exists_eq_add_of_le late
          have written := turned'.writes r (by omega) k hk
          refine written.trans (rowLocal _ _ (fun j hj => ?_) k hk)
          refine turned.frame _ (sources _ (by omega) j hj) fun b' hb' k' hk' same => ?_
          exact aliasing _ (by omega) b' (by omega) (by omega) j hj k' hk' same
      · intro a kept outside
        rw [reach] at outside
        have second := turned'.frame a kept fun b hb k hk => outside (i * chunk + b) (by omega) k hk
        rw [second]
        exact turned.frame a kept fun b hb k hk => outside b (by omega) k hk
  obtain ⟨s', run, good', turned⟩ := loop _ le_rfl
  have whole : min (ceilDiv batch chunk * chunk) batch = batch := by
    refine Nat.min_eq_right ?_
    rcases Nat.eq_zero_or_pos batch with rfl | some_
    · exact Nat.zero_le _
    · by_contra beyond
      exact absurd ((ltCeilDiv (positive some_)).mpr (not_le.mp beyond)) (lt_irrefl _)
  rw [whole] at turned
  refine ⟨s', ?_, good', turned⟩
  rw [chunkPrograms, batchChunks, List.foldlM_map]
  exact run

end Chunks

/- How a compiled node is executed: from a buffer to a buffer, a batch of rows. -/
abbrev Execute (R : Type*) := Address → Address → ℕ → Program R

/- Up to a batch the node was compiled for, rows outside of what it owns are replaced by their images; its invariant
is about nothing but what it owns. -/
structure Transforms {R : Type*} (node : Execute R) (good : State R → Prop) (own : ℕ → Prop) (n limit : ℕ)
    (row : (ℕ → R) → ℕ → R) : Prop where
  runs : ∀ src dst batch, batch ≤ limit → Compatible src dst → ¬ own src.buffer → ¬ own dst.buffer →
    Performs (node src dst batch) good own (src.row n) (dst.row n) n batch row
  keeps : ∀ s s' : State R, (∀ a, own a.buffer → s'.memory a = s.memory a) → (∀ i, own i → s'.ready i = s.ready i) →
    good s → good s'

section Nodes
variable {R : Type*} {node : Execute R} {good : State R → Prop} {own wider : ℕ → Prop} {n limit : ℕ}
  {row : (ℕ → R) → ℕ → R}

/- A node on `group` rows for every row of a batch. -/
theorem Transforms.groupRuns (ok : Transforms node good own n limit row) {src dst : Address} (compatible : Compatible src dst)
    (source : ¬ own src.buffer) (target : ¬ own dst.buffer) {count group : ℕ} (small : count * group ≤ limit) :
    Performs (node src dst (count * group)) good own (src.row (group * n)) (dst.row (group * n)) (group * n) count
      (eachRow n row) :=
  (ok.runs src dst (count * group) small compatible source target).regroup (blockGrouping group n) _
    (fun _ _ _ _ => Address.rowGroup) fun _ _ _ _ => Address.rowGroup

theorem Performs.mono {program : Program R} {src dst : Layout} {nOut rows : ℕ}
    (ok : Performs program good own src dst nOut rows row) (sub : ∀ i, own i → wider i) :
    Performs program good wider src dst nOut rows row :=
  ok.within (fun _ start => start) sub fun _ _ _ after _ => after

theorem Transforms.mono (ok : Transforms node good own n limit row) (sub : ∀ i, own i → wider i) :
    Transforms node good wider n limit row where
  runs src dst batch small compatible source target :=
    (ok.runs src dst batch small compatible (fun inner => source (sub _ inner)) fun inner => target (sub _ inner)).mono sub
  keeps s s' memory ready := ok.keeps s s' (fun a inner => memory a (sub _ inner)) fun i inner => ready i (sub i inner)

/- A node that remembers nothing. -/
theorem Transforms.ofRuns {op : Address → Address → ℕ → Memory R → Except Failure (Memory R)} {scratch : Address → Prop}
    (inside : ∀ a, scratch a → own a.buffer)
    (runs : ∀ src dst batch, batch ≤ limit → Compatible src dst → ¬ own src.buffer → ¬ own dst.buffer →
      RowRun (op src dst batch) scratch src dst n n batch row) :
    Transforms (fun src dst batch => onMemory (op src dst batch)) (fun _ => True) own n limit row where
  runs src dst batch small compatible source target :=
    LayoutRun.performs (runs src dst batch small compatible source target) inside fun _ _ _ _ _ => trivial
  keeps _ _ _ _ _ := trivial

end Nodes

end FlagFft.Compiled
