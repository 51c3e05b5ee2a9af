import FlagFft.Compiled.Convolve
import FlagFft.Library.ArbitraryLength

/-! CompiledRawRaderNode on its generic path: a prime length through a convolution one shorter, with the first frequency
stored on the side. In place it works on a copy of its input. -/
namespace FlagFft.Compiled.Rader
open Library.Indexing Library.Stores Library.Dft Library.Generators Library.Convolution Library.ArbitraryLength

/- `idx` is the table of the powers of the primitive root, `compiledBatch` what input_copy has room for. -/
structure RaderNode extends ConvolutionBuffers where
  length : ℕ
  idx : ℕ → ℕ
  inputCopy : Address
  compiledBatch : ℕ

section Kernels
variable {K : Type*} [Field K] [StarRing K]

def prepareKernel (n m : ℕ) (idx : ℕ → ℕ) (input : Address) : RowKernel K ℕ :=
  blockKernel m fun mem b o => mem (input.at (b * n + idx (if o = 0 then 0 else m - o)))

/- One thread per offset, and in the first block one more, which stores the first frequency. -/
def pointwiseKernel (n m : ℕ) (a b input : Address) : RowKernel K (Option ℕ) where
  gridX := ceilDiv m 256
  threads _ x := (blockThreads 256 m x).map some ++ if x = 0 then [none] else []
  index x
    | some t => x * 256 + t
    | none => m
  value mem batch x
    | some t => star (mem (a.at (batch * m + (x * 256 + t))) * mem (b.at (x * 256 + t)))
    | none => mem (a.at (batch * m)) + mem (input.at (batch * n))

def finalizeKernel (n m : ℕ) (input conv : Address) : RowKernel K ℕ :=
  blockKernel m fun mem b o => mem (input.at (b * n)) + star (mem (conv.at (b * m + o))) / m

/- Below the length of the convolution the products, at it dc_ptr. -/
def pointwiseLayout (n m : ℕ) (out dc : Address) : Layout := fun b k =>
  if k < m then out.row m b k else dc.row n b 0

def pointwiseReads (n m : ℕ) (a b input : Address) : Layout := fun batch j =>
  if j < m then a.row m batch j else if j < 2 * m then b.at (j - m) else input.row n batch 0

def finalizeReads (n m : ℕ) (input conv : Address) : Layout := fun b j =>
  if j < m then conv.row m b j else input.row n b 0

variable {n m batch : ℕ} {idx : ℕ → ℕ} {input a b out dc conv : Address}

omit [Field K] [StarRing K] in
theorem prepareMap (apart : input.buffer ≠ out.buffer) (schedule : Schedule) :
    LayoutMap ((prepareKernel n m idx input : RowKernel K ℕ).launch (out.row m) batch schedule) (fun _ => False)
      (input.row n) (out.row m) m batch (fun x i => x (idx (inverseExponent m i))) :=
  blockKernelMap (fun _ _ _ _ => by simp only [inverseExponent]) Address.rowInjective
    (fun _ _ _ _ => Address.atApart apart _ _) schedule

theorem readsFirst {r k : ℕ} (inside : k < m) : pointwiseReads n m a b input r k = a.row m r k := if_pos inside

theorem readsSecond {r k : ℕ} (inside : k < m) : pointwiseReads n m a b input r (m + k) = b.at k := by
  rw [pointwiseReads, if_neg (by omega), if_pos (by omega), Nat.add_sub_cancel_left]

theorem readsInput {r : ℕ} : pointwiseReads n m a b input r (2 * m) = input.row n r 0 := by
  rw [pointwiseReads, if_neg (by omega), if_neg (by omega)]

theorem pointwiseCovers (positive : 0 < m) : (pointwiseKernel n m a b input : RowKernel K (Option ℕ)).Covers (m + 1) batch
    fun k => if k < m then (k / 256, some (k % 256)) else (0, none) := by
  have grid : ∀ x, x < (pointwiseKernel n m a b input : RowKernel K (Option ℕ)).gridX ↔ x * 256 < m :=
    fun x => ltCeilDiv (by decide)
  have member : ∀ r x t, t ∈ (pointwiseKernel n m a b input : RowKernel K (Option ℕ)).threads r x ↔
      (∃ o, (o < 256 ∧ x * 256 + o < m) ∧ some o = t) ∨ x = 0 ∧ t = none := by
    intro r x t
    rw [pointwiseKernel, List.mem_append, List.mem_map]
    simp only [memBlockThreads]
    refine or_congr Iff.rfl ?_
    split_ifs with first <;> simp [first]
  constructor
  · intro _ _ x _
    refine List.Nodup.append ((List.nodup_range.filter _).map (Option.some_injective _)) ?_ ?_
    · split_ifs
      · exact List.nodup_singleton _
      · exact List.nodup_nil
    · intro t lane side
      obtain ⟨o, _, rfl⟩ := List.mem_map.mp lane
      split_ifs at side <;> simp at side
  · intro r _ x _ t thread
    rcases (member r x t).mp thread with ⟨o, ⟨lane, inside⟩, rfl⟩ | ⟨rfl, rfl⟩
    · refine ⟨Nat.lt_succ_of_lt inside, ?_⟩
      change (if x * 256 + o < m then ((x * 256 + o) / 256, some ((x * 256 + o) % 256)) else _) = _
      rw [if_pos inside, mulAddDiv lane, mulAddMod lane]
    · exact ⟨Nat.lt_succ_self m, if_neg (lt_irrefl m)⟩
  · intro r _ k inside
    by_cases low : k < m
    · have split : k / 256 * 256 + k % 256 = k := by
        rw [Nat.mul_comm]
        exact Nat.div_add_mod k 256
      have lane : k % 256 < 256 := Nat.mod_lt k (by decide)
      simp only [if_pos low]
      exact ⟨(grid (k / 256)).mpr (by omega),
        (member r _ _).mpr (.inl ⟨k % 256, ⟨lane, by omega⟩, rfl⟩), split⟩
    · simp only [if_neg low]
      have last : m = k := by omega
      have first : none ∈ (pointwiseKernel n m a b input : RowKernel K (Option ℕ)).threads r 0 :=
        (member r 0 none).mpr (.inr ⟨rfl, rfl⟩)
      exact ⟨(grid 0).mpr ((Nat.zero_mul 256).symm ▸ positive), first, last⟩

theorem pointwiseMap (positive : 0 < m) (several : 0 < n) (outDc : out.buffer ≠ dc.buffer)
    (apart : ∀ i ∈ [a.buffer, b.buffer, input.buffer], i ≠ out.buffer ∧ i ≠ dc.buffer) (schedule : Schedule) :
    LayoutMap ((pointwiseKernel n m a b input : RowKernel K (Option ℕ)).launch (pointwiseLayout n m out dc) batch schedule)
      (fun _ => False) (pointwiseReads n m a b input) (pointwiseLayout n m out dc) (m + 1) batch
      (fun y k => if k < m then star (y k * y (m + k)) else y 0 + y (2 * m)) := by
  refine ((pointwiseCovers positive).writes fun r _ x _ t thread mem => ?_).layoutMap ?_ ?_ schedule _
  · rcases t with _ | t
    · change mem (a.at (r * m)) + mem (input.at (r * n)) = if m < m then _ else
        mem (pointwiseReads n m a b input r 0) + mem (pointwiseReads n m a b input r (2 * m))
      rw [if_neg (lt_irrefl m), readsFirst positive, readsInput]
      rfl
    · have inside : x * 256 + t < m := by
        rcases List.mem_append.mp thread with lane | side
        · obtain ⟨o, lane, same⟩ := List.mem_map.mp lane
          cases same
          exact (memBlockThreads.mp lane).2
        · split_ifs at side <;> simp at side
      change star (mem (a.at (r * m + (x * 256 + t))) * mem (b.at (x * 256 + t))) =
        if x * 256 + t < m then star (mem (pointwiseReads n m a b input r (x * 256 + t)) *
          mem (pointwiseReads n m a b input r (m + (x * 256 + t)))) else _
      rw [if_pos inside, readsFirst inside, readsSecond inside]
      rfl
  · intro r _ r' _ k hk k' hk' same
    unfold pointwiseLayout at same
    by_cases low : k < m <;> by_cases low' : k' < m
    · rw [if_pos low, if_pos low'] at same
      exact (Address.rowInj low low').mp same
    · rw [if_pos low, if_neg low'] at same
      exact absurd same (Address.atApart outDc _ _)
    · rw [if_neg low, if_pos low'] at same
      exact absurd same (Address.atApart (Ne.symm outDc) _ _)
    · rw [if_neg low, if_neg low'] at same
      exact ⟨((Address.rowInj several several).mp same).1, by omega⟩
  · intro r j r' k
    simp only [List.mem_cons, List.not_mem_nil, or_false, forall_eq_or_imp, forall_eq] at apart
    unfold pointwiseReads pointwiseLayout
    split_ifs
    · exact Address.atApart apart.1.1 _ _
    · exact Address.atApart apart.1.2 _ _
    · exact Address.atApart apart.2.1.1 _ _
    · exact Address.atApart apart.2.1.2 _ _
    · exact Address.atApart apart.2.2.1 _ _
    · exact Address.atApart apart.2.2.2 _ _

theorem finalizeReadsConv {r k : ℕ} (inside : k < m) : finalizeReads n m input conv r k = conv.row m r k := if_pos inside

theorem finalizeReadsInput {r : ℕ} : finalizeReads n m input conv r m = input.row n r 0 := if_neg (lt_irrefl m)

theorem finalizeMap (small : ∀ i < m, idx i < n) (distinct : ∀ i < m, ∀ j < m, idx i = idx j → i = j)
    (apart : input.buffer ≠ out.buffer ∧ conv.buffer ≠ out.buffer) (schedule : Schedule) :
    LayoutMap ((finalizeKernel n m input conv : RowKernel K ℕ).launch (fun b k => out.row n b (idx k)) batch schedule)
      (fun _ => False) (finalizeReads n m input conv) (fun b k => out.row n b (idx k)) m batch
      (fun y k => y m + star (y k) / m) := by
  refine blockKernelMap (fun mem r o inside => ?_) (fun r _ r' _ k hk k' hk' same => ?_) (fun r j r' k => ?_) schedule
  · beta_reduce
    rw [finalizeReadsInput, finalizeReadsConv inside]
    rfl
  · obtain ⟨row, element⟩ := (Address.rowInj (small k hk) (small k' hk')).mp same
    exact ⟨row, distinct k hk k' hk' element⟩
  · unfold finalizeReads
    split_ifs
    · exact Address.atApart apart.2 _ _
    · exact Address.atApart apart.1 _ _

end Kernels

namespace RaderNode
variable {K : Type*} [Field K] [StarRing K] (node : RaderNode) (fft : Execute K) (schedule : Schedule)

def prepare (input : Address) (batch : ℕ) : Memory K → Memory K :=
  (prepareKernel node.length node.convLength node.idx input).launch (node.aBuf.row node.convLength) batch schedule

def pointwise (input output : Address) (batch : ℕ) : Memory K → Memory K :=
  (pointwiseKernel node.length node.convLength node.workBuf node.bFftBuf input).launch
    (pointwiseLayout node.length node.convLength node.aBuf output) batch schedule

def finalize (input output : Address) (batch : ℕ) : Memory K → Memory K :=
  (finalizeKernel node.length node.convLength input node.workBuf).launch
    (fun b k => output.row node.length b (node.idx k)) batch schedule

def run (input output : Address) (batch : ℕ) : Program K := fun s => do
  let s ← fft node.aBuf node.workBuf batch { s with memory := node.prepare schedule input batch s.memory }
  let s ← fft node.aBuf node.workBuf batch { s with memory := node.pointwise schedule input output batch s.memory }
  .ok { s with memory := node.finalize schedule input output batch s.memory }

def execute : Execute K := fun input output batch s => do
  let s ← node.ensureBFft fft s
  if input = output then
    node.run fft schedule node.inputCopy output batch { s with
      memory := copyDeviceToDevice node.inputCopy input (node.compiledBatch * node.length) s.memory }
  else node.run fft schedule input output batch s

/- What the node and the transform below it have for themselves. -/
def Owned (child : ℕ → Prop) (i : ℕ) : Prop := node.Own child i ∨ i = node.inputCopy.buffer

end RaderNode

/- What the plan and the tables give: a primitive root of a prime length and the table of its powers. -/
structure RaderTables (node : RaderNode) (g : ℕ) : Prop where
  prime : node.length.Prime
  positive : 0 < g
  less : g < node.length
  order : orderOf (g : ZMod node.length) = node.length - 1
  convLength : node.convLength = node.length - 1
  powers : ∀ i < node.convLength, node.idx i = g ^ i % node.length

/- Every nonzero index is a power, in exactly one way. -/
namespace RaderTables
variable {node : RaderNode} {g : ℕ} (tables : RaderTables node g)
include tables

theorem convPositive : 0 < node.convLength := by
  have several := tables.prime.two_le
  rw [tables.convLength]
  omega

theorem idxLess {i : ℕ} (inside : i < node.convLength) : node.idx i < node.length := by
  rw [tables.powers i inside]
  exact Nat.mod_lt _ tables.prime.pos

theorem idxNonzero {i : ℕ} (inside : i < node.convLength) : node.idx i ≠ 0 := by
  have : Fact node.length.Prime := ⟨tables.prime⟩
  rw [tables.powers i inside]
  exact (powerPositive tables.positive tables.less i).ne'

theorem idxDistinct {i j : ℕ} (hi : i < node.convLength) (hj : j < node.convLength) (same : node.idx i = node.idx j) :
    i = j := by
  have : Fact node.length.Prime := ⟨tables.prime⟩
  have nodup := (powerTablePerm tables.positive tables.less tables.order).nodup_iff.mpr List.nodup_range'
  unfold powerTable at nodup
  rw [tables.powers i hi, tables.powers j hj] at same
  rw [tables.convLength] at hi hj
  exact List.inj_on_of_nodup_map nodup (List.mem_range.mpr hi) (List.mem_range.mpr hj) same

theorem idxOnto {k : ℕ} (inside : k < node.length) (nonzero : k ≠ 0) : ∃ i < node.convLength, node.idx i = k := by
  have : Fact node.length.Prime := ⟨tables.prime⟩
  have member : k ∈ powerTable node.length g := by
    rw [(powerTablePerm tables.positive tables.less tables.order).mem_iff, List.mem_range'_1]
    omega
  obtain ⟨i, hi, power⟩ := List.mem_map.mp member
  have low : i < node.convLength := by
    rw [tables.convLength]
    exact List.mem_range.mp hi
  exact ⟨i, low, (tables.powers i low).trans power⟩

end RaderTables

/- What the convolution is about: the root of the row and the root of the convolution. -/
structure RaderRoots {K : Type*} [Field K] [StarRing K] (p : ℕ) (w v : K) : Prop where
  root : w ^ p = 1
  primitive : IsPrimitiveRoot v (p - 1)
  unit : star v = v⁻¹
  nonzero : ((p - 1 : ℕ) : K) ≠ 0

/- An input apart from the output, and both from the buffers of the convolution. -/
structure Placed (node : RaderNode) (child : ℕ → Prop) (input output : Address) : Prop where
  different : input.buffer ≠ output.buffer
  source : ¬ node.Own child input.buffer
  target : ¬ node.Own child output.buffer

section Steps
variable {K : Type*} [Field K] [StarRing K] {node : RaderNode} {g batch : ℕ} {input output : Address} {schedule : Schedule}
  {child : ℕ → Prop}

variable (placed : Placed node child input output)
include placed

omit [Field K] [StarRing K] in
theorem prepareKept (schedule : Schedule) (batch : ℕ) (m : Memory K) {a : Address} (other : a.buffer ≠ node.aBuf.buffer) :
    node.prepare schedule input batch m a = m a :=
  (prepareMap (outsideA placed.source) schedule).frame m a not_false fun _ _ _ _ same => other (same ▸ rfl)

variable (tables : RaderTables node g)
include tables

omit [Field K] [StarRing K] in
theorem prepareRows (m : Memory K) {r i : ℕ} (hr : r < batch) (hi : i < node.convLength) :
    node.prepare schedule input batch m (node.aBuf.row node.convLength r i) =
      gathered node.length g (fun j => m (input.row node.length r j)) i := by
  have written : node.prepare schedule input batch m (node.aBuf.row node.convLength r i) =
      m (input.row node.length r (node.idx (inverseExponent node.convLength i))) :=
    (prepareMap (outsideA placed.source) schedule).writes m r hr i hi
  rw [written, tables.powers _ (inverseExponentLess hi), tables.convLength]
  rfl

variable (apart : node.Apart child)
include apart

theorem productMap (schedule : Schedule) : LayoutMap (node.pointwise schedule input output batch) (fun _ => False)
    (pointwiseReads node.length node.convLength node.workBuf node.bFftBuf input)
    (pointwiseLayout node.length node.convLength node.aBuf output) (node.convLength + 1) batch
    (fun (y : ℕ → K) k => if k < node.convLength then star (y k * y (node.convLength + k))
      else y 0 + y (2 * node.convLength)) := by
  refine pointwiseMap tables.convPositive tables.prime.pos (outsideA placed.target).symm ?_ schedule
  simp only [List.mem_cons, List.not_mem_nil, or_false, forall_eq_or_imp, forall_eq]
  exact ⟨⟨apart.aWork.symm, (outsideWork placed.target).symm⟩, ⟨apart.aFft.symm, (outsideSpectrum placed.target).symm⟩,
    outsideA placed.source, placed.different⟩

theorem productRows (schedule : Schedule) (m : Memory K) {r k : ℕ} (hr : r < batch) (hk : k < node.convLength) :
    node.pointwise schedule input output batch m (node.aBuf.row node.convLength r k) =
      star (m (node.workBuf.row node.convLength r k) * m (node.bFftBuf.at k)) := by
  have written := (productMap placed tables apart schedule).writes m r hr k (Nat.lt_succ_of_lt hk)
  beta_reduce at written
  rw [if_pos hk, readsFirst hk, readsSecond hk] at written
  rwa [pointwiseLayout, if_pos hk] at written

/- A[0] is the sum of the permuted nonzero input. -/
theorem productFirst (m : Memory K) {r : ℕ} (hr : r < batch) :
    node.pointwise schedule input output batch m (output.row node.length r 0) =
      m (node.workBuf.row node.convLength r 0) + m (input.row node.length r 0) := by
  have written := (productMap placed tables apart schedule).writes m r hr _ (Nat.lt_succ_self _)
  beta_reduce at written
  rw [if_neg (lt_irrefl _), readsFirst tables.convPositive, readsInput] at written
  rwa [pointwiseLayout, if_neg (lt_irrefl _)] at written

theorem productKept (m : Memory K) {a : Address} (other : a.buffer ≠ node.aBuf.buffer)
    (beside : ∀ r < batch, a ≠ output.row node.length r 0) : node.pointwise schedule input output batch m a = m a := by
  refine (productMap placed tables apart schedule).frame m a not_false fun r hr k _ same => ?_
  unfold pointwiseLayout at same
  split_ifs at same
  · exact other (same ▸ rfl)
  · exact beside r hr same

omit apart

theorem finishMap (schedule : Schedule) : LayoutMap (node.finalize schedule input output batch) (fun _ => False)
    (finalizeReads node.length node.convLength input node.workBuf) (fun b k => output.row node.length b (node.idx k))
    node.convLength batch (fun (y : ℕ → K) k => y node.convLength + star (y k) / node.convLength) :=
  finalizeMap (fun _ => tables.idxLess) (fun _ hi _ hj => tables.idxDistinct hi hj)
    ⟨placed.different, (outsideWork placed.target).symm⟩ schedule

theorem finishRows (m : Memory K) {r k : ℕ} (hr : r < batch) (hk : k < node.convLength) :
    node.finalize schedule input output batch m (output.row node.length r (node.idx k)) =
      m (input.row node.length r 0) + star (m (node.workBuf.row node.convLength r k)) / node.convLength := by
  have written := (finishMap placed tables schedule).writes m r hr k hk
  beta_reduce at written
  rwa [finalizeReadsInput, finalizeReadsConv hk] at written

theorem finishKept (m : Memory K) {a : Address}
    (beside : ∀ r < batch, ∀ k < node.convLength, a ≠ output.row node.length r (node.idx k)) :
    node.finalize schedule input output batch m a = m a :=
  (finishMap placed tables schedule).frame m a not_false beside

end Steps

section Run
variable {K : Type*} [Field K] [StarRing K] {node : RaderNode} {fft : Execute K} {fftGood : State K → Prop}
  {child : ℕ → Prop} {limit batch g : ℕ} {w v : K} {input output : Address} {schedule : Schedule}

abbrev RaderNode.Good (node : RaderNode) (fftGood : State K → Prop) (g : ℕ) (w v : K) : State K → Prop :=
  node.toConvolutionBuffers.Good fftGood (rootPowers node.length g w) v

/- With the spectrum there: the first frequency comes from the product, the others from the convolution. -/
theorem raderRuns (schedule : Schedule) (tables : RaderTables node g) (roots : RaderRoots node.length w v)
    (ok : Transforms fft fftGood child node.convLength limit (dft node.convLength v)) (apart : node.Apart child)
    (placed : Placed node child input output) (small : batch ≤ limit) {s : State K} (good : node.Good fftGood g w v s)
    (set : s.ready node.bFftBuf.buffer = true) :
    ∃ s', node.run fft schedule input output batch s = .ok s' ∧ node.Good fftGood g w v s' ∧
      Turned (node.Own child) (input.row node.length) (output.row node.length) node.length batch
        (dft node.length w) s s' := by
  have : Fact node.length.Prime := ⟨tables.prime⟩
  have inA := outsideA placed.source
  have inWork := outsideWork placed.source
  have inChild : ¬ child input.buffer := fun inner => placed.source (.inl inner)
  have outChild : ¬ child output.buffer := fun inner => placed.target (.inl inner)
  let x := fun r j => s.memory (input.row node.length r j)
  have goodPrepared := good.changed ok fun a inner =>
    prepareKept placed schedule batch s.memory fun same => apart.aFree (same ▸ inner)
  obtain ⟨first, second, conv⟩ := convolved ok apart (tables.convLength ▸ roots.primitive) roots.unit
    (tables.convLength ▸ roots.nonzero) small goodPrepared set
    (fun m r hr k hk => productRows placed tables apart schedule m hr hk)
    (fun m a inner => productKept placed tables apart m (fun same => apart.aFree (same ▸ inner))
      fun r _ same => outsideGuarded placed.target inner (same ▸ rfl))
  have sourceFirst : ∀ r, first.memory (input.row node.length r 0) = x r 0 := fun r =>
    (conv.kept (input.row node.length r 0) inChild inWork).trans (prepareKept placed schedule batch _ inA)
  have sourceSecond : ∀ r, second.memory (input.row node.length r 0) = x r 0 := fun r =>
    ((conv.after (input.row node.length r 0) inChild inWork).trans
      (productKept placed tables apart _ inA fun _ _ => Address.atApart placed.different _ _)).trans (sourceFirst r)
  refine ⟨{ second with memory := node.finalize schedule input output batch second.memory }, ?_, ?_, ?_, ?_, ?_⟩
  · unfold RaderNode.run
    rw [conv.forward]
    change (fft node.aBuf node.workBuf batch
      { first with memory := node.pointwise schedule input output batch first.memory } >>= fun s => _) = _
    rw [conv.backward]
    rfl
  · exact conv.good.changed ok fun a inner =>
      finishKept placed tables _ fun r _ k _ same => outsideGuarded placed.target inner (same ▸ rfl)
  · intro r hr k hk
    have gathers : ∀ i < node.convLength, node.prepare schedule input batch s.memory (node.aBuf.row node.convLength r i) =
        gathered node.length g (x r) i := fun i hi => prepareRows placed tables s.memory hr hi
    rcases Nat.eq_zero_or_pos k with rfl | nonzero
    · -- no power is zero, so finalize leaves what the product stored
      have kept : node.finalize schedule input output batch second.memory (output.row node.length r 0) = _ :=
        (finishKept placed tables _ fun r' _ q hq same => tables.idxNonzero hq
          ((Address.rowInj tables.prime.pos (tables.idxLess hq)).mp same).2.symm).trans
          (conv.after (output.row node.length r 0) outChild (outsideWork placed.target))
      refine kept.trans ?_
      rw [productFirst placed tables apart _ hr, conv.spectra r hr 0 tables.convPositive, sourceFirst, dftCongr gathers,
        primeFirst tables.positive tables.less tables.order, tables.convLength, add_comm]
      simp only [dft, Nat.mul_zero, pow_zero, x]
    · obtain ⟨q, hq, rfl⟩ := tables.idxOnto hk (by omega)
      refine (finishRows placed tables second.memory hr hq).trans ?_
      rw [sourceSecond, conv.rows r hr q hq, cyclicCongr gathers fun _ _ => rfl, tables.powers q hq,
        primePower tables.positive tables.less tables.order roots.root, tables.convLength]
  · intro a kept beside
    have other : ∀ i, node.Own child i → a.buffer ≠ i := fun i inner same => kept (same ▸ inner)
    have notA := other _ (.inr (.inr (.inl rfl)))
    have notWork := other _ (.inr (.inr (.inr (.inl rfl))))
    have notChild : ¬ child a.buffer := fun inner => kept (.inl inner)
    calc node.finalize schedule input output batch second.memory a
        = second.memory a :=
          finishKept placed tables _ fun r hr q hq => beside r hr _ (tables.idxLess hq)
      _ = node.pointwise schedule input output batch first.memory a := conv.after a notChild notWork
      _ = first.memory a := productKept placed tables apart _ notA fun r hr => beside r hr 0 tables.prime.pos
      _ = node.prepare schedule input batch s.memory a := conv.kept a notChild notWork
      _ = s.memory a := prepareKept placed schedule batch _ notA
  · exact fun i kept => conv.flags i fun inner => kept (.inl inner)

omit [StarRing K] in
theorem raderKeeps (ok : Transforms fft fftGood child node.convLength limit (dft node.convLength v)) (s s' : State K)
    (memory : ∀ a, node.Owned child a.buffer → s'.memory a = s.memory a)
    (ready : ∀ i, node.Owned child i → s'.ready i = s.ready i) (good : node.Good fftGood g w v s) :
    node.Good fftGood g w v s' :=
  good.keeps (ok.keeps s s' (fun a inner => memory a (.inl (.inl inner))) (fun i inner => ready i (.inl (.inl inner))) good.fft)
    (fun i => memory (node.bTime.at i) (.inl (.inr (.inl rfl))))
    (fun i => memory (node.bFftBuf.at i) (.inl (.inr (.inr (.inr (.inr rfl)))))) (ready _ (.inl (.inr (.inr (.inr (.inr rfl))))))

/- In place or apart, the first execution and every later one. -/
theorem raderTransforms (tables : RaderTables node g) (roots : RaderRoots node.length w v)
    (ok : Transforms fft fftGood child node.convLength limit (dft node.convLength v)) (apart : node.Apart child)
    (copyApart : ¬ node.Own child node.inputCopy.buffer) (several : 1 ≤ limit) (fits : limit ≤ node.compiledBatch) :
    Transforms (node.execute fft schedule) (node.Good fftGood g w v) (node.Owned child) node.length limit
      (dft node.length w) := by
  refine ⟨fun src dst batch small compatible source target s good => ?_, raderKeeps ok⟩
  have srcOwn : ¬ node.Own child src.buffer := fun inner => source (.inl inner)
  have dstOwn : ¬ node.Own child dst.buffer := fun inner => target (.inl inner)
  obtain ⟨ready, ensured, goodReady, set, kept, flags⟩ := ensureBFftRuns ok apart several good
  have outer : ∀ a : Address, ¬ node.Own child a.buffer → ready.memory a = s.memory a :=
    fun a outside => kept a (fun inner => outside (.inl inner)) (outsideSpectrum outside)
  have outerFlags : ∀ i, ¬ node.Owned child i → ready.ready i = s.ready i :=
    fun i outside => flags i (fun inner => outside (.inl (.inl inner))) fun same =>
      outside (.inl (.inr (.inr (.inr (.inr same)))))
  by_cases inPlace : src = dst
  · subst inPlace
    have goodCopied := goodReady.changed (m := copyDeviceToDevice node.inputCopy src (node.compiledBatch * node.length)
      ready.memory) ok fun a inner => copyFrame fun _ _ same => outsideGuarded copyApart inner (same ▸ rfl)
    obtain ⟨s', run, good', turned⟩ := raderRuns schedule tables roots ok apart
      ⟨fun same => target (.inr same.symm), copyApart, dstOwn⟩ small goodCopied set
    refine ⟨s', ?_, good', fun b hb k hk => ?_, fun a outside beside => ?_, fun i outside => ?_⟩
    · unfold RaderNode.execute
      rw [ensured]
      exact (if_pos rfl).trans run
    · refine (turned.writes b hb k hk).trans (dftCongr fun j hj => ?_)
      have inside : b * node.length + j < node.compiledBatch * node.length :=
        mulAddLt (hb.trans_le (small.trans fits)) hj
      exact (copyWrites inside).trans (outer (src.row node.length b j) srcOwn)
    · refine (turned.frame a (fun inner => outside (.inl inner)) beside).trans ?_
      exact (copyFrame fun _ _ same => outside (.inr (by rw [same, Address.at]))).trans
        (outer a fun inner => outside (.inl inner))
    · exact (turned.flags i fun inner => outside (.inl inner)).trans (outerFlags i outside)
  · have different : src.buffer ≠ dst.buffer := compatible.resolve_left inPlace
    obtain ⟨s', run, good', turned⟩ := raderRuns schedule tables roots ok apart
      ⟨different, srcOwn, dstOwn⟩ small goodReady set
    refine ⟨s', ?_, good', fun b hb k hk => ?_, fun a outside beside => ?_, fun i outside => ?_⟩
    · unfold RaderNode.execute
      rw [ensured]
      exact (if_neg inPlace).trans run
    · exact (turned.writes b hb k hk).trans (dftCongr fun j _ => outer (src.row node.length b j) srcOwn)
    · exact (turned.frame a (fun inner => outside (.inl inner)) beside).trans (outer a fun inner => outside (.inl inner))
    · exact (turned.flags i fun inner => outside (.inl inner)).trans (outerFlags i outside)

end Run

end FlagFft.Compiled.Rader
