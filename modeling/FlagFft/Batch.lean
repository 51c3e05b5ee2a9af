import FlagFft.Device

/-! Batched operations on device memory. A layout map turns every row of a batch into a function of
that row alone, rows lying as two layouts say; maps compose, regroup and run chunk by chunk. -/
namespace FlagFft
open Library.Indexing Library.Stores

/- Scratch cells may end with anything; every other cell outside the destination rows is kept. -/
structure LayoutMap {R : Type*} (op : Memory R → Memory R) (scratch : Address → Prop) (src dst : Layout)
    (nOut rows : ℕ) (row : (ℕ → R) → ℕ → R) : Prop where
  writes : ∀ m, ∀ b < rows, ∀ k < nOut, op m (dst b k) = row (fun j => m (src b j)) k
  frame : ∀ m a, ¬ scratch a → (∀ b < rows, ∀ k < nOut, a ≠ dst b k) → op m a = m a

/- Contiguous rows to contiguous rows. -/
abbrev RowMap {R : Type*} (op : Memory R → Memory R) (scratch : Address → Prop) (src dst : Address)
    (nIn nOut rows : ℕ) (row : (ℕ → R) → ℕ → R) : Prop :=
  LayoutMap op scratch (src.row nIn) (dst.row nOut) nOut rows row

/- A row function whose first `nOut` elements only read the first `nIn` of the row. -/
def RowLocal {R : Type*} (nIn nOut : ℕ) (row : (ℕ → R) → ℕ → R) : Prop :=
  ∀ x y : ℕ → R, (∀ j < nIn, x j = y j) → ∀ k < nOut, row x k = row y k

theorem Address.rowShift {p : Address} {n offset row k : ℕ} :
    (p.at (offset * n)).row n row k = p.row n (offset + row) k := by
  rw [Address.row, Address.row, Address.atAt]
  congr 1
  ring

/- for (offset = 0; offset < batch; offset += chunk) with count = min(chunk, batch - offset) -/
def batchChunks (batch chunk : ℕ) : List (ℕ × ℕ) :=
  (List.range (ceilDiv batch chunk)).map fun i => (i * chunk, min chunk (batch - i * chunk))

def chunkLoop {R : Type*} (body : ℕ → ℕ → Memory R → Memory R) (batch chunk : ℕ) (m : Memory R) : Memory R :=
  (batchChunks batch chunk).foldl (fun m (offset, count) => body offset count m) m

section Chunks
variable {R : Type*} {batch chunk : ℕ}

theorem chunkLoopLaunch {body : ℕ → ℕ → Memory R → Memory R} {m : Memory R} :
    chunkLoop body batch chunk m =
      launch (fun i => body (i * chunk) (min chunk (batch - i * chunk))) (List.range (ceilDiv batch chunk)) m := by
  rw [chunkLoop, batchChunks, List.foldl_map]
  rfl

/- Row `b` is row `b % chunk` of chunk `b / chunk`. -/
theorem chunkOfRow (positive : 0 < chunk) {b : ℕ} (hb : b < batch) :
    b / chunk < ceilDiv batch chunk ∧ b % chunk < min chunk (batch - b / chunk * chunk) ∧
      b / chunk * chunk + b % chunk = b := by
  have split : b / chunk * chunk + b % chunk = b := by rw [Nat.mul_comm]; exact Nat.div_add_mod b chunk
  have low := Nat.mod_lt b positive
  refine ⟨(ltCeilDiv positive).mpr (by omega), lt_min low (by omega), split⟩

theorem chunkPositive {i : ℕ} (hi : i < ceilDiv batch chunk) : 0 < chunk := by
  rcases Nat.eq_zero_or_pos chunk with rfl | positive
  · simp [ceilDiv] at hi
  · exact positive

theorem chunkFits {i : ℕ} (hi : i < ceilDiv batch chunk) :
    i * chunk + min chunk (batch - i * chunk) ≤ batch := by
  have positive := chunkPositive hi
  have start := (ltCeilDiv positive).mp hi
  have := min_le_right chunk (batch - i * chunk)
  omega

/- Rows `offset` and following. -/
def Layout.from (layout : Layout) (offset : ℕ) : Layout := fun row k => layout (offset + row) k

/- Chunk by chunk an operation may overwrite a row once it has been read, but no row before. -/
theorem chunkedMap {body : ℕ → ℕ → Memory R → Memory R} {scratch : Address → Prop} {src dst : Layout}
    {nIn nOut : ℕ} {row : (ℕ → R) → ℕ → R} (positive : 0 < batch → 0 < chunk) (rowLocal : RowLocal nIn nOut row)
    (distinct : dst.Injective nOut batch)
    (aliasing : ∀ b < batch, ∀ b' < batch, b ≠ b' → ∀ j < nIn, ∀ k < nOut, src b j ≠ dst b' k)
    (sources : ∀ b < batch, ∀ j < nIn, ¬ scratch (src b j)) (targets : ∀ b < batch, ∀ k < nOut, ¬ scratch (dst b k))
    (each : ∀ offset count, offset + count ≤ batch →
      LayoutMap (body offset count) scratch (src.from offset) (dst.from offset) nOut count row) :
    LayoutMap (chunkLoop body batch chunk) scratch src dst nOut batch row := by
  have inChunk : ∀ i < ceilDiv batch chunk, LayoutMap (body (i * chunk) (min chunk (batch - i * chunk))) scratch
      (src.from (i * chunk)) (dst.from (i * chunk)) nOut (min chunk (batch - i * chunk)) row :=
    fun i hi => each _ _ (chunkFits hi)
  have sameChunk : ∀ {i i' b b'}, b < min chunk (batch - i * chunk) → b' < min chunk (batch - i' * chunk) →
      i * chunk + b = i' * chunk + b' → i = i' := fun hb hb' same =>
    (mulAddInj (hb.trans_le (min_le_left _ _)) (hb'.trans_le (min_le_left _ _)) same).1
  -- the destination rows of one chunk
  let region : ℕ → Address → Prop := fun i a =>
    ∃ b < min chunk (batch - i * chunk), ∃ k < nOut, a = dst (i * chunk + b) k
  have frame : ∀ i ∈ List.range (ceilDiv batch chunk), ∀ m' a, ¬ scratch a → ¬ region i a →
      body (i * chunk) (min chunk (batch - i * chunk)) m' a = m' a := by
    intro i hi m' a kept outside
    exact (inChunk i (List.mem_range.mp hi)).frame m' a kept fun b hb k hk same => outside ⟨b, hb, k, hk, same⟩
  have independent : ∀ m, Independent (fun i => body (i * chunk) (min chunk (batch - i * chunk)))
      (List.range (ceilDiv batch chunk)) m scratch region
      (fun a v => ∀ b < batch, ∀ k < nOut, a = dst b k → v = row (fun j => m (src b j)) k) := by
    intro m
    refine ⟨List.nodup_range, ?_, ?_, frame, ?_⟩
    · rintro i hi i' hi' apart a ⟨b, hb, k, hk, rfl⟩ ⟨b', hb', k', hk', same⟩
      have fits := chunkFits (List.mem_range.mp hi)
      have fits' := chunkFits (List.mem_range.mp hi')
      have rows := (distinct _ (by omega) _ (by omega) k hk k' hk' same).1
      exact apart (sameChunk hb hb' rows)
    · rintro i hi a ⟨b, hb, k, hk, rfl⟩
      have fits := chunkFits (List.mem_range.mp hi)
      exact targets _ (by omega) k hk
    · rintro i hi m' same a ⟨b, hb, k, hk, rfl⟩ b' hb' k' hk' place
      have fits := chunkFits (List.mem_range.mp hi)
      obtain ⟨rfl, rfl⟩ := distinct _ (by omega) _ hb' k hk k' hk' place
      refine ((inChunk i (List.mem_range.mp hi)).writes m' b hb k hk).trans ?_
      refine rowLocal _ _ (fun j hj => ?_) k hk
      refine same _ (sources _ (by omega) j hj) ?_
      rintro q hq apart ⟨b', hb', k', hk', clash⟩
      have fits' := chunkFits (List.mem_range.mp hq)
      exact aliasing _ (by omega) _ (by omega) (fun rows => apart (sameChunk hb hb' rows).symm) j hj k' hk' clash
  constructor
  · intro m b hb k hk
    obtain ⟨hi, hr, split⟩ := chunkOfRow (positive (Nat.zero_lt_of_lt hb)) hb
    rw [chunkLoopLaunch]
    exact launchWrites (independent m) (List.mem_range.mpr hi) ⟨b % chunk, hr, k, hk, by rw [split]⟩ b hb k hk rfl
  · intro m a kept outside
    rw [chunkLoopLaunch]
    refine launchFrame scratch region frame kept ?_
    rintro i hi ⟨b, hb, k, hk, rfl⟩
    have fits := chunkFits (List.mem_range.mp hi)
    exact outside _ (by omega) k hk rfl

theorem Address.rowFrom {p : Address} {n offset : ℕ} : (p.at (offset * n)).row n = (p.row n).from offset :=
  funext fun _ => funext fun _ => Address.rowShift

/- In place, or between buffers, contiguous rows do not meet other rows. -/
def Disjoint (src dst : Address) (nIn nOut : ℕ) : Prop := src = dst ∧ nIn = nOut ∨ src.buffer ≠ dst.buffer

theorem Disjoint.rows {src dst : Address} {nIn nOut b b' j k : ℕ} (ok : Disjoint src dst nIn nOut) (apart : b ≠ b')
    (hj : j < nIn) (hk : k < nOut) : src.row nIn b j ≠ dst.row nOut b' k := by
  rcases ok with ⟨rfl, rfl⟩ | buffers
  · exact fun same => apart ((Address.rowInj hj hk).mp same).1
  · exact Address.atApart buffers _ _

theorem chunkedRowMap {body : ℕ → ℕ → Memory R → Memory R} {scratch : Address → Prop} {src dst : Address}
    {nIn nOut : ℕ} {row : (ℕ → R) → ℕ → R} (positive : 0 < batch → 0 < chunk) (rowLocal : RowLocal nIn nOut row)
    (aliasing : Disjoint src dst nIn nOut) (sources : ∀ i, ¬ scratch (src.at i)) (targets : ∀ i, ¬ scratch (dst.at i))
    (each : ∀ offset count, offset + count ≤ batch → RowMap (body offset count) scratch
      (src.at (offset * nIn)) (dst.at (offset * nOut)) nIn nOut count row) :
    RowMap (chunkLoop body batch chunk) scratch src dst nIn nOut batch row := by
  refine chunkedMap positive rowLocal Address.rowInjective (fun b _ b' _ apart j hj k hk => aliasing.rows apart hj hk)
    (fun _ _ _ _ => sources _) (fun _ _ _ _ => targets _) fun offset count fits => ?_
  rw [← Address.rowFrom, ← Address.rowFrom]
  exact each offset count fits

end Chunks

section Maps
variable {R : Type*} {op first second : Memory R → Memory R} {scratch wider : Address → Prop}
  {src mid dst : Layout} {nIn nMid nOut rows : ℕ} {f g : (ℕ → R) → ℕ → R}

/- One map after another, through scratch. -/
theorem LayoutMap.comp (one : LayoutMap first scratch src mid nMid rows f)
    (two : LayoutMap second scratch mid dst nOut rows g) (rowLocal : RowLocal nMid nOut g)
    (middle : ∀ b < rows, ∀ j < nMid, scratch (mid b j)) :
    LayoutMap (fun m => second (first m)) scratch src dst nOut rows (fun x => g (f x)) where
  writes m b hb k hk := by
    rw [two.writes _ b hb k hk]
    exact rowLocal _ _ (fun j hj => one.writes m b hb j hj) k hk
  frame m a kept outside := by
    rw [two.frame _ a kept outside]
    exact one.frame m a kept fun b hb j hj same => kept (same ▸ middle b hb j hj)

theorem LayoutMap.congr (ok : LayoutMap op scratch src dst nOut rows f) (same : ∀ x, ∀ k < nOut, f x k = g x k) :
    LayoutMap op scratch src dst nOut rows g where
  writes m b hb k hk := (ok.writes m b hb k hk).trans (same _ k hk)
  frame := ok.frame

/- Without scratch, the rows say everything. -/
theorem LayoutMap.unique (one : LayoutMap first (fun _ => False) src dst nOut rows f)
    (two : LayoutMap second (fun _ => False) src dst nOut rows f) (m : Memory R) : first m = second m := by
  funext a
  by_cases inside : ∃ b < rows, ∃ k < nOut, a = dst b k
  · obtain ⟨b, hb, k, hk, rfl⟩ := inside
    rw [one.writes m b hb k hk, two.writes m b hb k hk]
  · have outside : ∀ b < rows, ∀ k < nOut, a ≠ dst b k := fun b hb k hk here => inside ⟨b, hb, k, hk, here⟩
    rw [one.frame m a not_false outside, two.frame m a not_false outside]

theorem LayoutMap.mono (ok : LayoutMap op scratch src dst nOut rows f) (sub : ∀ a, scratch a → wider a) :
    LayoutMap op wider src dst nOut rows f where
  writes := ok.writes
  frame m a kept outside := ok.frame m a (fun h => kept (sub a h)) outside

end Maps

/- How `group` short rows of `n` elements make up each long row: where element `k` of short row `i`
lies in the long row, and which element of which short row an element of the long row is. -/
structure Grouping (group n nOut : ℕ) where
  place : ℕ → ℕ → ℕ
  short : ℕ → ℕ
  element : ℕ → ℕ
  inside : ∀ i < group, ∀ k < n, place i k < nOut
  member : ∀ o < nOut, short o < group ∧ element o < n ∧ place (short o) (element o) = o

/- The short rows of a long row, each transformed; `gather` says where a short row is read. -/
def Grouping.row {R : Type*} {group n nOut : ℕ} (grouping : Grouping group n nOut) (gather : ℕ → ℕ → ℕ)
    (f : (ℕ → R) → ℕ → R) (x : ℕ → R) (o : ℕ) : R :=
  f (fun j => x (gather (grouping.short o) j)) (grouping.element o)

theorem LayoutMap.regroup {R : Type*} {op : Memory R → Memory R} {scratch : Address → Prop} {src dst src' dst' : Layout}
    {n nOut rows group : ℕ} {f : (ℕ → R) → ℕ → R} (grouping : Grouping group n nOut) (gather : ℕ → ℕ → ℕ)
    (ok : LayoutMap op scratch src' dst' n (rows * group) f)
    (source : ∀ b, ∀ i < group, ∀ j, src' (b * group + i) j = src b (gather i j))
    (target : ∀ b, ∀ i < group, ∀ k, dst' (b * group + i) k = dst b (grouping.place i k)) :
    LayoutMap op scratch src dst nOut rows (grouping.row gather f) where
  writes m b hb o ho := by
    obtain ⟨short, element, here⟩ := grouping.member o ho
    have written := ok.writes m (b * group + grouping.short o) (mulAddLt hb short) (grouping.element o) element
    rw [target b _ short, here] at written
    rw [written, Grouping.row]
    simp only [source b _ short]
  frame m a kept outside := by
    refine ok.frame m a kept fun b hb k hk same => ?_
    have hGroup : 0 < group := Nat.pos_of_mul_pos_left (Nat.zero_lt_of_lt hb)
    have short := Nat.mod_lt b hGroup
    refine outside (b / group) (Nat.div_lt_of_lt_mul (by rwa [Nat.mul_comm] at hb)) _
      (grouping.inside _ short k hk) (same.trans ?_)
    rw [← target _ _ short, Nat.mul_comm (b / group), Nat.div_add_mod]

/- Short rows that follow each other. -/
def blockGrouping (group n : ℕ) : Grouping group n (group * n) where
  place i k := i * n + k
  short o := o / n
  element o := o % n
  inside _ hi _ hk := mulAddLt hi hk
  member o ho := by
    have positive : 0 < n := Nat.pos_of_mul_pos_left (Nat.zero_lt_of_lt ho)
    refine ⟨Nat.div_lt_of_lt_mul (by rwa [Nat.mul_comm] at ho), Nat.mod_lt o positive, ?_⟩
    rw [Nat.mul_comm]
    exact Nat.div_add_mod o n

/- Every row of `n` elements transformed on its own. -/
def eachRow {R : Type*} (n : ℕ) (f : (ℕ → R) → ℕ → R) (x : ℕ → R) (o : ℕ) : R :=
  f (fun j => x (o / n * n + j)) (o % n)

theorem Address.rowGroup {p : Address} {n group b i j : ℕ} :
    p.row n (b * group + i) j = p.row (group * n) b (i * n + j) := by
  unfold Address.row
  congr 1
  ring

/- An operation that may fail but does not: it returns, and what it returns is a layout map. -/
def LayoutRun {R : Type*} (op : Memory R → Except Failure (Memory R)) (scratch : Address → Prop) (src dst : Layout)
    (nOut rows : ℕ) (row : (ℕ → R) → ℕ → R) : Prop :=
  ∃ run, (∀ m, op m = .ok (run m)) ∧ LayoutMap run scratch src dst nOut rows row

abbrev RowRun {R : Type*} (op : Memory R → Except Failure (Memory R)) (scratch : Address → Prop) (src dst : Address)
    (nIn nOut rows : ℕ) (row : (ℕ → R) → ℕ → R) : Prop :=
  LayoutRun op scratch (src.row nIn) (dst.row nOut) nOut rows row

section Run
variable {R : Type*} {scratch : Address → Prop} {src mid dst : Layout} {nIn nMid nOut rows : ℕ}
  {f g : (ℕ → R) → ℕ → R} {op next : Memory R → Except Failure (Memory R)}

theorem LayoutMap.run {run : Memory R → Memory R} (ok : LayoutMap run scratch src dst nOut rows f) :
    LayoutRun (fun m => .ok (run m)) scratch src dst nOut rows f := ⟨run, fun _ => rfl, ok⟩

theorem LayoutRun.comp (one : LayoutRun op scratch src mid nMid rows f)
    (two : LayoutRun next scratch mid dst nOut rows g) (rowLocal : RowLocal nMid nOut g)
    (middle : ∀ b < rows, ∀ j < nMid, scratch (mid b j)) :
    LayoutRun (fun m => op m >>= next) scratch src dst nOut rows (fun x => g (f x)) := by
  obtain ⟨first, firstOk, firstMap⟩ := one
  obtain ⟨second, secondOk, secondMap⟩ := two
  refine ⟨fun m => second (first m), fun m => ?_, firstMap.comp secondMap rowLocal middle⟩
  change op m >>= next = _
  rw [firstOk]
  exact secondOk (first m)

theorem LayoutRun.congr (ok : LayoutRun op scratch src dst nOut rows f) (same : ∀ x, ∀ k < nOut, f x k = g x k) :
    LayoutRun op scratch src dst nOut rows g := by
  obtain ⟨run, returns, map⟩ := ok
  exact ⟨run, returns, map.congr same⟩

theorem LayoutRun.mono {wider : Address → Prop} (ok : LayoutRun op scratch src dst nOut rows f)
    (sub : ∀ a, scratch a → wider a) : LayoutRun op wider src dst nOut rows f := by
  obtain ⟨run, returns, map⟩ := ok
  exact ⟨run, returns, map.mono sub⟩

theorem LayoutRun.regroup {src' dst' : Layout} {n group : ℕ} (grouping : Grouping group n nOut) (gather : ℕ → ℕ → ℕ)
    (ok : LayoutRun op scratch src' dst' n (rows * group) f)
    (source : ∀ b, ∀ i < group, ∀ j, src' (b * group + i) j = src b (gather i j))
    (target : ∀ b, ∀ i < group, ∀ k, dst' (b * group + i) k = dst b (grouping.place i k)) :
    LayoutRun op scratch src dst nOut rows (grouping.row gather f) := by
  obtain ⟨run, returns, map⟩ := ok
  exact ⟨run, returns, map.regroup grouping gather source target⟩

/- The chunk loop when the body may fail; it stops at the first failure. -/
def chunkLoopM (body : ℕ → ℕ → Memory R → Except Failure (Memory R)) (batch chunk : ℕ) (m : Memory R) :
    Except Failure (Memory R) :=
  (batchChunks batch chunk).foldlM (fun m (offset, count) => body offset count m) m

theorem LayoutRun.chunked {body : ℕ → ℕ → Memory R → Except Failure (Memory R)} {batch chunk : ℕ}
    (positive : 0 < batch → 0 < chunk) (rowLocal : RowLocal nIn nOut f) (distinct : dst.Injective nOut batch)
    (aliasing : ∀ b < batch, ∀ b' < batch, b ≠ b' → ∀ j < nIn, ∀ k < nOut, src b j ≠ dst b' k)
    (sources : ∀ b < batch, ∀ j < nIn, ¬ scratch (src b j)) (targets : ∀ b < batch, ∀ k < nOut, ¬ scratch (dst b k))
    (each : ∀ offset count, LayoutRun (body offset count) scratch (src.from offset) (dst.from offset) nOut count f) :
    LayoutRun (chunkLoopM body batch chunk) scratch src dst nOut batch f := by
  choose run returns map using each
  refine ⟨chunkLoop run batch chunk, fun m => ?_,
    chunkedMap positive rowLocal distinct aliasing sources targets fun offset count _ => map offset count⟩
  unfold chunkLoopM chunkLoop
  simp only [returns]
  exact List.foldlM_pure

theorem RowRun.chunked {src dst : Address} {body : ℕ → ℕ → Memory R → Except Failure (Memory R)} {batch chunk : ℕ}
    (positive : 0 < batch → 0 < chunk) (rowLocal : RowLocal nIn nOut f) (aliasing : Disjoint src dst nIn nOut)
    (sources : ∀ i, ¬ scratch (src.at i)) (targets : ∀ i, ¬ scratch (dst.at i))
    (each : ∀ offset count, RowRun (body offset count) scratch
      (src.at (offset * nIn)) (dst.at (offset * nOut)) nIn nOut count f) :
    RowRun (chunkLoopM body batch chunk) scratch src dst nIn nOut batch f := by
  refine LayoutRun.chunked positive rowLocal Address.rowInjective
    (fun b _ b' _ apart j hj k hk => aliasing.rows apart hj hk) (fun _ _ _ _ => sources _) (fun _ _ _ _ => targets _)
    fun offset count => ?_
  rw [← Address.rowFrom, ← Address.rowFrom]
  exact each offset count

end Run

/- A compiled child node runs a batch of rows from one buffer to another, or fails. -/
abbrev Child (R : Type*) := Address → Address → ℕ → Memory R → Except Failure (Memory R)

/- On buffers outside its own scratch the child turns every row of `n` elements into its image. -/
def Child.Computes {R : Type*} (child : Child R) (scratch : Address → Prop) (n : ℕ)
    (row : (ℕ → R) → ℕ → R) : Prop :=
  ∀ src dst batch, Compatible src dst → (∀ i, ¬ scratch (src.at i)) → (∀ i, ¬ scratch (dst.at i)) →
    RowRun (child src dst batch) scratch src dst n n batch row

theorem Address.shiftKept {scratch : Address → Prop} {p : Address} (kept : ∀ i, ¬ scratch (p.at i)) (shift i : ℕ) :
    ¬ scratch ((p.at shift).at i) := by
  rw [Address.atAt]
  exact kept (shift + i)

/- The child on `group` rows for every row of the batch. -/
theorem Child.Computes.groupRun {R : Type*} {child : Child R} {scratch wider : Address → Prop} {n : ℕ}
    {row : (ℕ → R) → ℕ → R} (ok : child.Computes scratch n row) (sub : ∀ a, scratch a → wider a)
    {src dst : Address} (compatible : Compatible src dst) (source : ∀ i, ¬ scratch (src.at i))
    (target : ∀ i, ¬ scratch (dst.at i)) (count group : ℕ) :
    RowRun (child src dst (count * group)) wider src dst (group * n) (group * n) count
      (eachRow n row) :=
  ((ok src dst (count * group) compatible source target).mono sub).regroup (blockGrouping group n) _
    (fun _ _ _ _ => Address.rowGroup) (fun _ _ _ _ => Address.rowGroup)

/- Every row at once: the result of a row function on each row of the source. -/
def idealRows {R : Type*} (nIn nOut : ℕ) (row : (ℕ → R) → ℕ → R) (src dst : Address) (batch : ℕ) (m : Memory R) :
    Memory R := fun a =>
  if a.buffer = dst.buffer ∧ dst.offset ≤ a.offset ∧ a.offset < dst.offset + batch * nOut then
    row (fun j => m (src.row nIn ((a.offset - dst.offset) / nOut) j)) ((a.offset - dst.offset) % nOut)
  else m a

theorem idealRowsMap {R : Type*} {nIn nOut : ℕ} {row : (ℕ → R) → ℕ → R} {src dst : Address} {batch : ℕ}
    {scratch : Address → Prop} : RowMap (idealRows nIn nOut row src dst batch) scratch src dst nIn nOut batch row := by
  refine ⟨fun m b hb k hk => ?_, fun m a _ outside => ?_⟩
  · have inside := mulAddLt hb hk
    have offset : (dst.row nOut b k).offset - dst.offset = b * nOut + k := Nat.add_sub_cancel_left _ _
    unfold idealRows
    rw [if_pos ⟨rfl, Nat.le_add_right _ _, Nat.add_lt_add_left inside _⟩, offset, mulAddDiv hk, mulAddMod hk]
  · refine if_neg ?_
    rintro ⟨buffer, low, high⟩
    have positive : 0 < nOut := Nat.pos_of_mul_pos_left (show 0 < batch * nOut by omega)
    refine outside ((a.offset - dst.offset) / nOut) ?_ ((a.offset - dst.offset) % nOut) (Nat.mod_lt _ positive) ?_
    · refine Nat.div_lt_of_lt_mul ?_
      rw [Nat.mul_comm]
      omega
    · unfold Address.row Address.at
      rw [Nat.mul_comm, Nat.div_add_mod, Nat.add_sub_of_le low, ← buffer]

/- The same for any two layouts: every cell of the destination is looked up. -/
noncomputable def idealLayout {R : Type*} (nOut rows : ℕ) (row : (ℕ → R) → ℕ → R) (src dst : Layout) (m : Memory R) :
    Memory R := fun a =>
  open Classical in
  if found : ∃ p : ℕ × ℕ, p.1 < rows ∧ p.2 < nOut ∧ a = dst p.1 p.2 then
    row (fun j => m (src (Classical.choose found).1 j)) (Classical.choose found).2
  else m a

theorem idealLayoutMap {R : Type*} {nOut rows : ℕ} {row : (ℕ → R) → ℕ → R} {src dst : Layout} {scratch : Address → Prop}
    (distinct : dst.Injective nOut rows) : LayoutMap (idealLayout nOut rows row src dst) scratch src dst nOut rows row := by
  refine ⟨fun m b hb k hk => ?_, fun m a _ outside => ?_⟩
  · have found : ∃ p : ℕ × ℕ, p.1 < rows ∧ p.2 < nOut ∧ dst b k = dst p.1 p.2 := ⟨(b, k), hb, hk, rfl⟩
    have chosen := Classical.choose_spec found
    obtain ⟨sameRow, sameElement⟩ := distinct b hb _ chosen.1 k hk _ chosen.2.1 chosen.2.2
    unfold idealLayout
    rw [dif_pos found, ← sameRow, ← sameElement]
  · refine dif_neg fun found => ?_
    obtain ⟨p, hb, hk, same⟩ := found
    exact outside p.1 hb p.2 hk same

/- A child that does what is assumed of one. -/
def rowChild {R : Type*} (n : ℕ) (row : (ℕ → R) → ℕ → R) : Child R := fun src dst batch m =>
  .ok (idealRows n n row src dst batch m)

theorem rowChildComputes {R : Type*} {n : ℕ} {row : (ℕ → R) → ℕ → R} :
    (rowChild n row).Computes (fun _ => False) n row := fun _ _ _ _ _ _ => idealRowsMap.run

end FlagFft
