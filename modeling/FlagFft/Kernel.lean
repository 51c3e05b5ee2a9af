import FlagFft.Batch

/-! Kernels without shared memory: each thread of each program loads, computes one value and stores
it. Over its grid such a kernel stores every element of its destination rows exactly once. -/
namespace FlagFft
open Library.Indexing Library.Stores

structure ElementKernel (R τ : Type*) where
  threads : ℕ → List τ
  address : ℕ → τ → Address
  value : Memory R → ℕ → τ → R

namespace ElementKernel
variable {R τ : Type*} (kernel : ElementKernel R τ)

def stores (program : ℕ) (m : Memory R) : List (Store Address R) :=
  (kernel.threads program).map fun t => ⟨kernel.address program t, kernel.value m program t⟩

def launch (grid : ℕ) (schedule : Schedule) (m : Memory R) : Memory R :=
  runStores kernel.stores (schedule.order grid) m

/- Over the grid, whatever memory each program sees, the destination rows are stored exactly once. -/
def StoresOnce (grid : ℕ) (dst : Layout) (n rows : ℕ) : Prop :=
  ∀ (schedule : Schedule) (seen : ℕ → Memory R),
    ((schedule.order grid).flatMap fun p => (kernel.stores p (seen p)).map Store.address).Nodup ∧
    ∀ a, a ∈ ((schedule.order grid).flatMap fun p => (kernel.stores p (seen p)).map Store.address) ↔
      ∃ b < rows, ∃ k < n, a = dst b k

/- Whatever a thread stores lies in one row of the destination and depends on the same row of the source only. -/
def KeepsRows (grid : ℕ) (src dst : Layout) (nIn nOut rows : ℕ) : Prop :=
  ∀ p < grid, ∀ t ∈ kernel.threads p, ∃ b < rows, (∃ k < nOut, kernel.address p t = dst b k) ∧
    ∀ m m', (∀ j < nIn, m (src b j) = m' (src b j)) → kernel.value m p t = kernel.value m' p t

structure StageOk (grid : ℕ) (src dst : Layout) (nIn nOut rows : ℕ) : Prop where
  once : kernel.StoresOnce grid dst nOut rows
  inside : kernel.KeepsRows grid src dst nIn nOut rows

/- `find` gives the program and thread of an element; a thread stores a function of its own row. -/
structure Writes (grid : ℕ) (src dst : Layout) (nOut rows : ℕ) (row : (ℕ → R) → ℕ → R)
    (find : ℕ → ℕ → ℕ × τ) : Prop where
  nodup : ∀ p < grid, (kernel.threads p).Nodup
  place : ∀ p < grid, ∀ t ∈ kernel.threads p, ∃ b < rows, ∃ k < nOut, find b k = (p, t) ∧
    kernel.address p t = dst b k ∧ ∀ m, kernel.value m p t = row (fun j => m (src b j)) k
  onto : ∀ b < rows, ∀ k < nOut, (find b k).1 < grid ∧ (find b k).2 ∈ kernel.threads (find b k).1 ∧
    kernel.address (find b k).1 (find b k).2 = dst b k

variable {kernel} {grid : ℕ} {src dst : Layout} {nIn nOut rows : ℕ} {row : (ℕ → R) → ℕ → R}
  {find : ℕ → ℕ → ℕ × τ}

theorem Writes.once (ok : kernel.Writes grid src dst nOut rows row find) (distinct : dst.Injective nOut rows) :
    kernel.StoresOnce grid dst nOut rows := by
  intro schedule seen
  have addresses : ∀ p, (kernel.stores p (seen p)).map Store.address =
      (kernel.threads p).map (kernel.address p) := by
    intro p
    simp only [stores, List.map_map, Function.comp_def]
  simp only [addresses]
  obtain ⟨nodup, member⟩ := flatMapAddresses (fun p => (kernel.threads p).map (kernel.address p))
    (fun p a => ∃ b < rows, ∃ k < nOut, (find b k).1 = p ∧ a = dst b k)
    ((schedule.complete grid).nodup_iff.mpr List.nodup_range)
    (fun p _ q _ apart a here there => by
      obtain ⟨b, hb, k, hk, rfl, rfl⟩ := here
      obtain ⟨b', hb', k', hk', rfl, same⟩ := there
      obtain ⟨rfl, rfl⟩ := distinct b hb b' hb' k hk k' hk' same
      exact apart rfl)
    (fun p hp => by
      rw [schedule.mem] at hp
      constructor
      · refine List.Nodup.map_on (fun t ht t' ht' same => ?_) (ok.nodup p hp)
        obtain ⟨b, hb, k, hk, found, place, _⟩ := ok.place p hp t ht
        obtain ⟨b', hb', k', hk', found', place', _⟩ := ok.place p hp t' ht'
        obtain ⟨rfl, rfl⟩ := distinct b hb b' hb' k hk k' hk' (place.symm.trans (same.trans place'))
        exact (Prod.mk.inj (found.symm.trans found')).2
      · intro a
        rw [List.mem_map]
        constructor
        · intro ⟨t, ht, stored⟩
          obtain ⟨b, hb, k, hk, found, place, _⟩ := ok.place p hp t ht
          exact ⟨b, hb, k, hk, congrArg Prod.fst found, stored.symm.trans place⟩
        · intro ⟨b, hb, k, hk, found, here⟩
          obtain ⟨_, thread, place⟩ := ok.onto b hb k hk
          exact ⟨(find b k).2, found ▸ thread, found ▸ place.trans here.symm⟩)
  refine ⟨nodup, fun a => (member a).trans ⟨?_, ?_⟩⟩
  · intro ⟨_, _, b, hb, k, hk, _, here⟩
    exact ⟨b, hb, k, hk, here⟩
  · intro ⟨b, hb, k, hk, here⟩
    exact ⟨_, schedule.mem.mpr (ok.onto b hb k hk).1, b, hb, k, hk, rfl, here⟩

theorem Writes.keepsRows (ok : kernel.Writes grid src dst nOut rows row find) (rowLocal : RowLocal nIn nOut row) :
    kernel.KeepsRows grid src dst nIn nOut rows := by
  intro p hp t ht
  obtain ⟨b, hb, k, hk, _, place, value⟩ := ok.place p hp t ht
  refine ⟨b, hb, ⟨k, hk, place⟩, fun m m' same => ?_⟩
  rw [value m, value m']
  exact rowLocal _ _ same k hk

theorem Writes.stageOk (ok : kernel.Writes grid src dst nOut rows row find) (distinct : dst.Injective nOut rows)
    (rowLocal : RowLocal nIn nOut row) : kernel.StageOk grid src dst nIn nOut rows :=
  ⟨ok.once distinct, ok.keepsRows rowLocal⟩

theorem Writes.layoutMap (ok : kernel.Writes grid src dst nOut rows row find) (distinct : dst.Injective nOut rows)
    (apart : ∀ b j b' k, src b j ≠ dst b' k) (schedule : Schedule) (scratch : Address → Prop) :
    LayoutMap (kernel.launch grid schedule) scratch src dst nOut rows row := by
  have flat : ∀ m, kernel.launch grid schedule m =
      commitAll m ((schedule.order grid).flatMap fun p => kernel.stores p m) := by
    intro m
    refine runStoresFlat (fun a => ∃ b j, a = src b j) (fun p hp m' same => ?_) (fun p hp s hs => ?_)
    · refine List.map_congr_left fun t ht => ?_
      obtain ⟨b, _, k, hk, _, _, value⟩ := ok.place p (schedule.mem.mp hp) t ht
      have reads : (fun j => m' (src b j)) = fun j => m (src b j) := funext fun j => same _ ⟨b, j, rfl⟩
      rw [value m', value m, reads]
    · obtain ⟨t, ht, rfl⟩ := List.mem_map.mp hs
      obtain ⟨b, _, k, _, _, place, _⟩ := ok.place p (schedule.mem.mp hp) t ht
      rintro ⟨b', j, same⟩
      exact apart b' j b k (same.symm.trans place)
  constructor
  · intro m b hb k hk
    rw [flat m]
    apply commitAllWritten
    · obtain ⟨program, thread, place⟩ := ok.onto b hb k hk
      exact ⟨⟨_, kernel.value m (find b k).1 (find b k).2⟩, List.mem_flatMap.mpr
        ⟨_, schedule.mem.mpr program, List.mem_map.mpr ⟨_, thread, rfl⟩⟩, place⟩
    · intro s hs same
      obtain ⟨p, hp, hs⟩ := List.mem_flatMap.mp hs
      obtain ⟨t, ht, rfl⟩ := List.mem_map.mp hs
      obtain ⟨b', hb', k', hk', _, place, value⟩ := ok.place p (schedule.mem.mp hp) t ht
      obtain ⟨rfl, rfl⟩ := distinct b' hb' b hb k' hk' k hk (place.symm.trans same)
      exact value m
  · intro m a kept outside
    rw [flat m]
    refine commitAllUntouched fun s hs same => ?_
    obtain ⟨p, hp, hs⟩ := List.mem_flatMap.mp hs
    obtain ⟨t, ht, rfl⟩ := List.mem_map.mp hs
    obtain ⟨b, hb, k, hk, _, place, _⟩ := ok.place p (schedule.mem.mp hp) t ht
    exact outside b hb k hk (same.symm.trans place)

end ElementKernel

/- Program ids of a two-dimensional grid, counted with the first axis fastest. -/
def programX (gridX program : ℕ) : ℕ := program % gridX

def programY (gridX program : ℕ) : ℕ := program / gridX

/- A kernel launched on the grid (gridX, batch): program (x, batch) works on one row of the batch. -/
structure RowKernel (R τ : Type*) where
  gridX : ℕ
  threads : ℕ → ℕ → List τ
  index : ℕ → τ → ℕ
  value : Memory R → ℕ → ℕ → τ → R

namespace RowKernel
variable {R τ : Type*} (kernel : RowKernel R τ)

def element (dst : Layout) : ElementKernel R τ where
  threads p := kernel.threads (programY kernel.gridX p) (programX kernel.gridX p)
  address p t := dst (programY kernel.gridX p) (kernel.index (programX kernel.gridX p) t)
  value m p t := kernel.value m (programY kernel.gridX p) (programX kernel.gridX p) t

def launch (dst : Layout) (batch : ℕ) (schedule : Schedule) : Memory R → Memory R :=
  (kernel.element dst).launch (kernel.gridX * batch) schedule

/- `find` gives the program and the thread of each element of a row. -/
structure Covers (nOut batch : ℕ) (find : ℕ → ℕ × τ) : Prop where
  nodup : ∀ b < batch, ∀ x < kernel.gridX, (kernel.threads b x).Nodup
  place : ∀ b < batch, ∀ x < kernel.gridX, ∀ t ∈ kernel.threads b x,
    kernel.index x t < nOut ∧ find (kernel.index x t) = (x, t)
  onto : ∀ b < batch, ∀ k < nOut, (find k).1 < kernel.gridX ∧ (find k).2 ∈ kernel.threads b (find k).1 ∧
    kernel.index (find k).1 (find k).2 = k

variable {kernel} {src dst : Layout} {nOut batch : ℕ} {row : (ℕ → R) → ℕ → R} {find : ℕ → ℕ × τ}

theorem Covers.writes (covers : kernel.Covers nOut batch find)
    (value : ∀ b < batch, ∀ x < kernel.gridX, ∀ t ∈ kernel.threads b x, ∀ m,
      kernel.value m b x t = row (fun j => m (src b j)) (kernel.index x t)) :
    (kernel.element dst).Writes (kernel.gridX * batch) src dst nOut batch row
      (fun b k => (b * kernel.gridX + (find k).1, (find k).2)) := by
  have inGrid : ∀ p < kernel.gridX * batch, programY kernel.gridX p < batch ∧ programX kernel.gridX p < kernel.gridX := by
    intro p hp
    have positive : 0 < kernel.gridX := Nat.pos_of_mul_pos_right (Nat.zero_lt_of_lt hp)
    exact ⟨Nat.div_lt_of_lt_mul hp, Nat.mod_lt p positive⟩
  constructor
  · intro p hp
    exact covers.nodup _ (inGrid p hp).1 _ (inGrid p hp).2
  · intro p hp t ht
    obtain ⟨hb, hx⟩ := inGrid p hp
    obtain ⟨inside, found⟩ := covers.place _ hb _ hx t ht
    have program : programY kernel.gridX p * kernel.gridX + programX kernel.gridX p = p := by
      unfold programX programY
      rw [Nat.mul_comm, Nat.div_add_mod]
    exact ⟨_, hb, _, inside, by rw [found, program], rfl, value _ hb _ hx t ht⟩
  · intro b hb k hk
    obtain ⟨hx, thread, index⟩ := covers.onto b hb k hk
    have hy : programY kernel.gridX (b * kernel.gridX + (find k).1) = b := mulAddDiv hx
    have hx' : programX kernel.gridX (b * kernel.gridX + (find k).1) = (find k).1 := mulAddMod hx
    refine ⟨?_, ?_, ?_⟩
    · rw [Nat.mul_comm kernel.gridX]
      exact mulAddLt hb hx
    · unfold element
      simpa only [hy, hx'] using thread
    · unfold element
      simp only [hy, hx', index]

end RowKernel

/- offsets = program_id(0) * block + arange(0, block), masked to the first `total` of them. -/
def blockThreads (block total x : ℕ) : List ℕ :=
  (List.range block).filter fun lane => x * block + lane < total

theorem memBlockThreads {block total x lane : ℕ} :
    lane ∈ blockThreads block total x ↔ lane < block ∧ x * block + lane < total := by
  simp only [blockThreads, List.mem_filter, List.mem_range, decide_eq_true_eq]

/- One thread per offset; `place` is the position of an offset in the row and `unplace` its inverse. -/
theorem RowKernel.blockCovers {R : Type*} (kernel : RowKernel R ℕ) {block total nOut batch : ℕ} {place : ℕ → ℕ}
    (unplace : ℕ → ℕ) (positive : 0 < block) (gridX : kernel.gridX = ceilDiv total block)
    (threads : ∀ b x, kernel.threads b x = blockThreads block total x)
    (index : ∀ x t, kernel.index x t = place (x * block + t))
    (inside : ∀ o < total, place o < nOut ∧ unplace (place o) = o)
    (back : ∀ k < nOut, unplace k < total ∧ place (unplace k) = k) :
    kernel.Covers nOut batch (fun k => (unplace k / block, unplace k % block)) := by
  constructor
  · intro b _ x _
    rw [threads]
    exact List.nodup_range.filter _
  · intro b _ x _ t ht
    rw [threads, memBlockThreads] at ht
    obtain ⟨low, here⟩ := inside _ ht.2
    rw [index]
    refine ⟨low, ?_⟩
    simp only [here, mulAddDiv ht.1, mulAddMod ht.1]
  · intro b _ k hk
    obtain ⟨low, here⟩ := back k hk
    have split : unplace k / block * block + unplace k % block = unplace k := by
      rw [Nat.mul_comm]
      exact Nat.div_add_mod _ _
    have member := Nat.mod_lt (unplace k) positive
    refine ⟨?_, ?_, ?_⟩
    · change unplace k / block < _
      rw [gridX, ltCeilDiv positive]
      omega
    · rw [threads, memBlockThreads, split]
      exact ⟨member, low⟩
    · rw [index, split, here]

end FlagFft
