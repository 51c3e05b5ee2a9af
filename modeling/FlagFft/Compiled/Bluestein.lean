import FlagFft.Compiled.Convolve
import FlagFft.Library.ArbitraryLength

/-! CompiledRawBluesteinNode: any length through a convolution of a length that is easier to transform, chunk by chunk
of the batch, with a chirp before and after it. -/
namespace FlagFft.Compiled.Bluestein
open Library.Indexing Library.Stores Library.Dft Library.Convolution Library.ArbitraryLength

structure BluesteinNode extends ConvolutionBuffers where
  length : ℕ
  chirp : Address
  batchChunk : ℕ

section Kernels
variable {K : Type*} [Field K] [StarRing K]

def prepareKernel (n m : ℕ) (input chirp : Address) : RowKernel K ℕ :=
  blockKernel m fun mem b o => if o < n then mem (input.at (b * n + o)) * mem (chirp.at o) else 0

def pointwiseKernel (m : ℕ) (a b : Address) : RowKernel K ℕ :=
  blockKernel m fun mem batch o => star (mem (a.at (batch * m + o)) * mem (b.at o))

def finalizeKernel (n m : ℕ) (input chirp : Address) : RowKernel K ℕ :=
  blockKernel n fun mem b o => star (mem (input.at (b * m + o))) / m * mem (chirp.at o)

/- A row of `n` elements, and behind it a table every row reads. -/
def besideTable (n : ℕ) (rows : Layout) (table : Address) : Layout := fun b j =>
  if j < n then rows b j else table.at (j - n)

variable {n m batch : ℕ} {input output a b chirp : Address} {rows : Layout} {table : Address}

theorem besideRow {r j : ℕ} (inside : j < n) : besideTable n rows table r j = rows r j := if_pos inside

theorem besideEntry {r j : ℕ} : besideTable n rows table r (n + j) = table.at j := by
  rw [besideTable, if_neg (by omega), Nat.add_sub_cancel_left]

theorem besideApart {p : Address} {k : ℕ} (first : ∀ r j, rows r j ≠ p.at k) (second : table.buffer ≠ p.buffer) (r j : ℕ) :
    besideTable n rows table r j ≠ p.at k := by
  unfold besideTable
  split_ifs
  · exact first r j
  · exact Address.atApart second _ _

omit [StarRing K] in
theorem prepareMap (apart : input.buffer ≠ output.buffer) (chirpApart : chirp.buffer ≠ output.buffer) (schedule : Schedule) :
    LayoutMap ((prepareKernel n m input chirp : RowKernel K ℕ).launch (output.row m) batch schedule) (fun _ => False)
      (besideTable n (input.row n) chirp) (output.row m) m batch (fun y o => if o < n then y o * y (n + o) else 0) := by
  refine blockKernelMap (fun mem r o _ => ?_) Address.rowInjective
    (fun r j _ _ => besideApart (fun _ _ => Address.atApart apart _ _) chirpApart r j) schedule
  split_ifs with inside
  · beta_reduce
    rw [besideRow inside, besideEntry]
  · rfl

theorem pointwiseMap (first : a.buffer ≠ output.buffer) (second : b.buffer ≠ output.buffer) (schedule : Schedule) :
    LayoutMap ((pointwiseKernel m a b : RowKernel K ℕ).launch (output.row m) batch schedule) (fun _ => False)
      (besideTable m (a.row m) b) (output.row m) m batch (fun y o => star (y o * y (m + o))) := by
  refine blockKernelMap (fun mem r o inside => ?_) Address.rowInjective
    (fun r j _ _ => besideApart (fun _ _ => Address.atApart first _ _) second r j) schedule
  beta_reduce
  rw [besideRow inside, besideEntry]

/- The convolution has room for every row. -/
theorem finalizeMap (room : n ≤ m) (apart : input.buffer ≠ output.buffer) (chirpApart : chirp.buffer ≠ output.buffer)
    (schedule : Schedule) : LayoutMap ((finalizeKernel n m input chirp : RowKernel K ℕ).launch (output.row n) batch schedule)
      (fun _ => False) (besideTable m (input.row m) chirp) (output.row n) n batch
      (fun y o => star (y o) / m * y (m + o)) := by
  refine blockKernelMap (fun mem r o inside => ?_) Address.rowInjective
    (fun r j _ _ => besideApart (fun _ _ => Address.atApart apart _ _) chirpApart r j) schedule
  beta_reduce
  rw [besideRow (inside.trans_le room), besideEntry]

end Kernels

namespace BluesteinNode
variable {K : Type*} [Field K] [StarRing K] (node : BluesteinNode) (fft : Execute K) (schedule : Schedule)

def prepare (input : Address) (batch : ℕ) : Memory K → Memory K :=
  (prepareKernel node.length node.convLength input node.chirp).launch (node.aBuf.row node.convLength) batch schedule

def pointwise (batch : ℕ) : Memory K → Memory K :=
  (pointwiseKernel node.convLength node.workBuf node.bFftBuf).launch (node.aBuf.row node.convLength) batch schedule

def finalize (output : Address) (batch : ℕ) : Memory K → Memory K :=
  (finalizeKernel node.length node.convLength node.workBuf node.chirp).launch (output.row node.length) batch schedule

def chunk (input output : Address) (batch : ℕ) : Program K := fun s => do
  let s ← fft node.aBuf node.workBuf batch { s with memory := node.prepare schedule input batch s.memory }
  let s ← fft node.aBuf node.workBuf batch { s with memory := node.pointwise schedule batch s.memory }
  .ok { s with memory := node.finalize schedule output batch s.memory }

def execute : Execute K := fun input output batch s => do
  let s ← node.ensureBFft fft s
  chunkPrograms (fun offset count => node.chunk fft schedule (input.at (offset * node.length))
    (output.at (offset * node.length)) count) batch node.batchChunk s

def Owned (child : ℕ → Prop) (i : ℕ) : Prop := node.Own child i ∨ i = node.chirp.buffer

/- The chirp lies in its buffer as well. -/
structure Good (fftGood : State K → Prop) (z v : K) (s : State K) : Prop where
  convolution : node.toConvolutionBuffers.Good fftGood (mirroredChirp node.length node.convLength z) v s
  chirp : ∀ i < node.length, s.memory (node.chirp.at i) = Library.ArbitraryLength.chirp z i

end BluesteinNode

/- An input and an output apart from the buffers of the node, in place or apart from each other. -/
structure Placed (node : BluesteinNode) (child : ℕ → Prop) (input output : Address) : Prop where
  source : ¬ node.Owned child input.buffer
  target : ¬ node.Owned child output.buffer

/- The chirp belongs to the node alone. -/
structure Fresh (node : BluesteinNode) (child : ℕ → Prop) : Prop where
  apart : node.Apart child
  chirp : ¬ node.Own child node.chirp.buffer

section Run
variable {K : Type*} [Field K] [StarRing K] {node : BluesteinNode} {fft : Execute K} {fftGood : State K → Prop}
  {child : ℕ → Prop} {limit batch : ℕ} {z v : K} {input output : Address} {schedule : Schedule}

/- A primitive root for the convolution, and room for a row and its mirror image. -/
structure BluesteinRoots (node : BluesteinNode) (z v : K) : Prop where
  nonzero : z ≠ 0
  room : 2 * node.length - 1 ≤ node.convLength
  primitive : IsPrimitiveRoot v node.convLength
  unit : star v = v⁻¹
  length : (node.convLength : K) ≠ 0

omit [StarRing K] in
theorem BluesteinNode.Good.changed (ok : Transforms fft fftGood child node.convLength limit (dft node.convLength v))
    {s : State K} {m : Memory K} (good : node.Good fftGood z v s)
    (kept : ∀ a, node.Guarded child a.buffer ∨ a.buffer = node.chirp.buffer → m a = s.memory a) :
    node.Good fftGood z v { s with memory := m } where
  convolution := good.convolution.changed ok fun a inner => kept a (.inl inner)
  chirp i inside := (kept (node.chirp.at i) (.inr rfl)).trans (good.chirp i inside)

/- One chunk, with the spectrum there. -/
theorem chunkPerforms (roots : BluesteinRoots node z v)
    (ok : Transforms fft fftGood child node.convLength limit (dft node.convLength v)) (fresh : Fresh node child)
    (placed : Placed node child input output) (small : batch ≤ limit) :
    Performs (node.chunk fft schedule input output batch)
      (fun s => node.Good fftGood z v s ∧ s.ready node.bFftBuf.buffer = true) (node.Owned child) (input.row node.length)
      (output.row node.length) node.length batch (dft node.length (z * z)) := by
  intro s ⟨good, set⟩
  have apart := fresh.apart
  have source : ¬ node.Own child input.buffer := fun inner => placed.source (.inl inner)
  have target : ¬ node.Own child output.buffer := fun inner => placed.target (.inl inner)
  have chirpChild : ¬ child node.chirp.buffer := fun inner => fresh.chirp (.inl inner)
  have room : node.length ≤ node.convLength := by
    have wide := roots.room
    omega
  let x := fun r j => s.memory (input.row node.length r j)
  have prepared : LayoutMap (node.prepare schedule input batch) (fun _ => False) (besideTable node.length (input.row node.length)
      node.chirp) (node.aBuf.row node.convLength) node.convLength batch
      fun (y : ℕ → K) o => if o < node.length then y o * y (node.length + o) else 0 :=
    prepareMap (outsideA source) (outsideA fresh.chirp) schedule
  have prepareKept : ∀ a, a.buffer ≠ node.aBuf.buffer → node.prepare schedule input batch s.memory a = s.memory a :=
    fun a other => prepared.frame _ a not_false fun _ _ _ _ same => other (same ▸ rfl)
  have product : LayoutMap (node.pointwise schedule batch) (fun _ => False) (besideTable node.convLength
      (node.workBuf.row node.convLength) node.bFftBuf) (node.aBuf.row node.convLength) node.convLength batch
      fun (y : ℕ → K) o => star (y o * y (node.convLength + o)) :=
    pointwiseMap apart.aWork.symm apart.aFft.symm schedule
  have productKept : ∀ m a, a.buffer ≠ node.aBuf.buffer → node.pointwise schedule batch m a = m a :=
    fun m a other => product.frame _ a not_false fun _ _ _ _ same => other (same ▸ rfl)
  have finished : LayoutMap (node.finalize schedule output batch) (fun _ => False) (besideTable node.convLength
      (node.workBuf.row node.convLength) node.chirp) (output.row node.length) node.length batch
      fun (y : ℕ → K) o => star (y o) / node.convLength * y (node.convLength + o) :=
    finalizeMap room (outsideWork target).symm (fun same => placed.target (.inr same.symm)) schedule
  have guardedA : ∀ a : Address, node.Guarded child a.buffer ∨ a.buffer = node.chirp.buffer → a.buffer ≠ node.aBuf.buffer := by
    rintro a (inner | same)
    · exact fun same => apart.aFree (same ▸ inner)
    · exact same ▸ outsideA fresh.chirp
  have goodPrepared := good.changed ok fun a inner => prepareKept a (guardedA a inner)
  obtain ⟨first, second, conv⟩ := convolved ok apart roots.primitive roots.unit roots.length small goodPrepared.convolution set
    (fun m r hr k hk => by
      have written := product.writes m r hr k hk
      beta_reduce at written
      rwa [besideRow hk, besideEntry] at written)
    (fun m a inner => productKept m a (guardedA a (.inl inner)))
  have chirpFirst : ∀ i < node.length, first.memory (node.chirp.at i) = chirp z i := fun i inside =>
    (conv.kept (node.chirp.at i) chirpChild (outsideWork fresh.chirp)).trans
      ((prepareKept (node.chirp.at i) (outsideA fresh.chirp)).trans (good.chirp i inside))
  have chirpSecond : ∀ i < node.length, second.memory (node.chirp.at i) = chirp z i := fun i inside =>
    (conv.after (node.chirp.at i) chirpChild (outsideWork fresh.chirp)).trans
      ((productKept _ (node.chirp.at i) (outsideA fresh.chirp)).trans (chirpFirst i inside))
  have goodSecond : node.Good fftGood z v second := ⟨conv.good, chirpSecond⟩
  refine ⟨{ second with memory := node.finalize schedule output batch second.memory }, ?_, ⟨?_, ?_⟩, ?_, ?_, ?_⟩
  · unfold BluesteinNode.chunk
    rw [conv.forward]
    change (fft node.aBuf node.workBuf batch
      { first with memory := node.pointwise schedule batch first.memory } >>= fun s => _) = _
    rw [conv.backward]
    rfl
  · refine goodSecond.changed ok fun a inner => finished.frame _ a not_false fun r _ k _ same => ?_
    have buffer : a.buffer = output.buffer := by rw [same, Address.row, Address.at]
    rcases inner with inner | chirpHere
    · exact outsideGuarded target inner buffer
    · exact placed.target (.inr (buffer.symm.trans chirpHere))
  · exact (conv.flags _ apart.spectrum).trans set
  · intro r hr k hk
    have gathers : ∀ i < node.convLength, node.prepare schedule input batch s.memory (node.aBuf.row node.convLength r i) =
        chirped node.length z (x r) i := by
      intro i hi
      rw [prepared.writes _ r hr i hi, chirped]
      split_ifs with inside
      · beta_reduce
        rw [besideRow inside, besideEntry, good.chirp i inside]
      · rfl
    refine (finished.writes second.memory r hr k hk).trans ?_
    beta_reduce
    rw [besideRow (hk.trans_le room), besideEntry, conv.rows r hr k (hk.trans_le room), chirpSecond k hk,
      cyclicCongr gathers fun _ _ => rfl, chirpTransform roots.nonzero roots.room _ hk]
  · intro a kept beside
    have notOwn : ¬ node.Own child a.buffer := fun inner => kept (.inl inner)
    have notChild : ¬ child a.buffer := fun inner => notOwn (.inl inner)
    calc node.finalize schedule output batch second.memory a
        = second.memory a := finished.frame _ a not_false beside
      _ = node.pointwise schedule batch first.memory a := conv.after a notChild (outsideWork notOwn)
      _ = first.memory a := productKept _ a (outsideA notOwn)
      _ = node.prepare schedule input batch s.memory a := conv.kept a notChild (outsideWork notOwn)
      _ = s.memory a := prepareKept a (outsideA notOwn)
  · exact fun i kept => conv.flags i fun inner => kept (.inl (.inl inner))

omit [StarRing K] in
theorem bluesteinKeeps (ok : Transforms fft fftGood child node.convLength limit (dft node.convLength v)) (s s' : State K)
    (memory : ∀ a, node.Owned child a.buffer → s'.memory a = s.memory a)
    (ready : ∀ i, node.Owned child i → s'.ready i = s.ready i) (good : node.Good fftGood z v s) :
    node.Good fftGood z v s' where
  convolution := good.convolution.keeps
    (ok.keeps s s' (fun a inner => memory a (.inl (.inl inner))) (fun i inner => ready i (.inl (.inl inner))) good.convolution.fft)
    (fun i => memory (node.bTime.at i) (.inl (.inr (.inl rfl))))
    (fun i => memory (node.bFftBuf.at i) (.inl (.inr (.inr (.inr (.inr rfl)))))) (ready _ (.inl (.inr (.inr (.inr (.inr rfl))))))
  chirp i inside := (memory (node.chirp.at i) (.inr rfl)).trans (good.chirp i inside)

/- The buffers hold one chunk, so a batch of any size goes through. -/
theorem bluesteinTransforms (roots : BluesteinRoots node z v)
    (ok : Transforms fft fftGood child node.convLength limit (dft node.convLength v)) (fresh : Fresh node child)
    (positive : 0 < node.batchChunk) (fits : node.batchChunk ≤ limit) (bound : ℕ) :
    Transforms (node.execute fft schedule) (node.Good fftGood z v) (node.Owned child) node.length bound
      (dft node.length (z * z)) := by
  refine ⟨fun src dst batch _ compatible source target s good => ?_, bluesteinKeeps ok⟩
  have several : 1 ≤ limit := Nat.le_trans positive fits
  obtain ⟨ready, ensured, convolution, set, kept, flags⟩ := ensureBFftRuns ok fresh.apart several good.convolution
  have outer : ∀ a : Address, ¬ node.Own child a.buffer → ready.memory a = s.memory a :=
    fun a outside => kept a (fun inner => outside (.inl inner)) (outsideSpectrum outside)
  have goodReady : node.Good fftGood z v ready :=
    ⟨convolution, fun i inside => (outer (node.chirp.at i) fresh.chirp).trans (good.chirp i inside)⟩
  have chunks : Performs (chunkPrograms (fun offset count => node.chunk fft schedule (src.at (offset * node.length))
      (dst.at (offset * node.length)) count) batch node.batchChunk)
      (fun s => node.Good fftGood z v s ∧ s.ready node.bFftBuf.buffer = true) (node.Owned child) (src.row node.length)
      (dst.row node.length) node.length batch (dft node.length (z * z)) := by
    refine Performs.chunked (fun _ => positive) (fun _ _ same k _ => dftCongr same) Address.rowInjective
      (fun b _ b' _ apart j hj k hk => compatible.rowApart hj hk apart) (fun _ _ _ _ => source) (fun _ _ _ _ => target)
      fun offset count _ short => ?_
    rw [← Address.rowFrom, ← Address.rowFrom]
    exact chunkPerforms roots ok fresh ⟨source, target⟩ (short.trans fits)
  obtain ⟨s', run, good', turned⟩ := chunks ready ⟨goodReady, set⟩
  refine ⟨s', ?_, good'.1, fun b hb k hk => ?_, fun a outside beside => ?_, fun i outside => ?_⟩
  · unfold BluesteinNode.execute
    rw [ensured]
    exact run
  · exact (turned.writes b hb k hk).trans
      (dftCongr fun j _ => outer (src.row node.length b j) fun inner => source (.inl inner))
  · exact (turned.frame a outside beside).trans (outer a fun inner => outside (.inl inner))
  · exact (turned.flags i outside).trans (flags i (fun inner => outside (.inl (.inl inner))) fun same =>
      outside (.inl (.inr (.inr (.inr (.inr same))))))

end Run

end FlagFft.Compiled.Bluestein
