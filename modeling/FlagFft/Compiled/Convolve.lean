import FlagFft.Compiled.Machine
import FlagFft.Kernel
import FlagFft.Library.Convolution

/-! What the nodes of prime and arbitrary lengths share: kernels over blocks of 256 offsets, the buffers of a convolution
and its second factor, which is transformed once and remembered. -/
namespace FlagFft.Compiled
open Library.Indexing Library.Stores Library.Dft Library.Convolution

section Blocks
variable {R : Type*}

/- offsets = program_id(0) * 256 + arange(0, 256), masked to the first `total`; batch = program_id(1) -/
def blockKernel (total : ℕ) (value : Memory R → ℕ → ℕ → R) : RowKernel R ℕ where
  gridX := ceilDiv total 256
  threads _ x := blockThreads 256 total x
  index x t := x * 256 + t
  value m b x t := value m b (x * 256 + t)

theorem blockKernelMap {total batch : ℕ} {value : Memory R → ℕ → ℕ → R} {src dst : Layout} {row : (ℕ → R) → ℕ → R}
    (each : ∀ m b o, o < total → value m b o = row (fun j => m (src b j)) o) (distinct : dst.Injective total batch)
    (apart : ∀ b j b' k, src b j ≠ dst b' k) (schedule : Schedule) :
    LayoutMap ((blockKernel total value).launch dst batch schedule) (fun _ => False) src dst total batch row := by
  have covers : (blockKernel total value).Covers total batch fun k => (id k / 256, id k % 256) :=
    (blockKernel total value).blockCovers id (by decide : 0 < 256) rfl (fun _ _ => rfl) (fun _ _ => rfl)
      (fun o inside => ⟨inside, rfl⟩) fun k inside => ⟨inside, rfl⟩
  exact (covers.writes fun b _ x _ t member m => each m b _ (memBlockThreads.mp member).2).layoutMap distinct apart
    schedule _

end Blocks

/- The buffers of CompiledRawBluesteinNode and CompiledRawRaderNode that do not depend on the length they compute. -/
structure ConvolutionBuffers where
  convLength : ℕ
  bTime : Address
  aBuf : Address
  workBuf : Address
  bFftBuf : Address

namespace ConvolutionBuffers
variable (conv : ConvolutionBuffers)

/- The buffers of the node and of the transform below it. -/
def Own (child : ℕ → Prop) (i : ℕ) : Prop :=
  child i ∨ i = conv.bTime.buffer ∨ i = conv.aBuf.buffer ∨ i = conv.workBuf.buffer ∨ i = conv.bFftBuf.buffer

def ensureBFft {R : Type*} (fft : Execute R) : Program R := fun s =>
  if s.ready conv.bFftBuf.buffer then .ok s
  else match fft conv.bTime conv.bFftBuf 1 s with
    | .ok s => .ok { s with ready := Function.update s.ready conv.bFftBuf.buffer true }
    | .error _ => .error .execFailed

section Good
variable {K : Type*} [CommRing K] (fftGood : State K → Prop) (b : ℕ → K) (v : K)

/- The second factor lies in its buffer, and once the flag is set so does its spectrum. -/
structure Good (s : State K) : Prop where
  fft : fftGood s
  table : ∀ i < conv.convLength, s.memory (conv.bTime.at i) = b i
  spectrum : s.ready conv.bFftBuf.buffer = true →
    ∀ i < conv.convLength, s.memory (conv.bFftBuf.at i) = dft conv.convLength v b i

end Good

/- The buffers are pairwise apart and none belongs to the transform of the convolution. -/
structure Apart (child : ℕ → Prop) : Prop where
  timeA : conv.bTime.buffer ≠ conv.aBuf.buffer
  timeWork : conv.bTime.buffer ≠ conv.workBuf.buffer
  timeFft : conv.bTime.buffer ≠ conv.bFftBuf.buffer
  aWork : conv.aBuf.buffer ≠ conv.workBuf.buffer
  aFft : conv.aBuf.buffer ≠ conv.bFftBuf.buffer
  workFft : conv.workBuf.buffer ≠ conv.bFftBuf.buffer
  time : ¬ child conv.bTime.buffer
  a : ¬ child conv.aBuf.buffer
  work : ¬ child conv.workBuf.buffer
  spectrum : ¬ child conv.bFftBuf.buffer

/- The child's buffers and the two tables: what has to be kept for the invariant. -/
def Guarded (child : ℕ → Prop) (i : ℕ) : Prop := child i ∨ i = conv.bTime.buffer ∨ i = conv.bFftBuf.buffer

variable {conv} {child : ℕ → Prop}

theorem Apart.aFree (apart : conv.Apart child) : ¬ conv.Guarded child conv.aBuf.buffer := by
  rintro (inner | same | same)
  · exact apart.a inner
  · exact apart.timeA same.symm
  · exact apart.aFft same

theorem Apart.workFree (apart : conv.Apart child) : ¬ conv.Guarded child conv.workBuf.buffer := by
  rintro (inner | same | same)
  · exact apart.work inner
  · exact apart.timeWork same.symm
  · exact apart.workFft same

end ConvolutionBuffers

section Outside
variable {conv : ConvolutionBuffers} {child : ℕ → Prop} {i j : ℕ}

theorem outsideA (outside : ¬ conv.Own child i) : i ≠ conv.aBuf.buffer :=
  fun same => outside (.inr (.inr (.inl same)))

theorem outsideWork (outside : ¬ conv.Own child i) : i ≠ conv.workBuf.buffer :=
  fun same => outside (.inr (.inr (.inr (.inl same))))

theorem outsideSpectrum (outside : ¬ conv.Own child i) : i ≠ conv.bFftBuf.buffer :=
  fun same => outside (.inr (.inr (.inr (.inr same))))

theorem outsideGuarded (outside : ¬ conv.Own child i) (inner : conv.Guarded child j) : j ≠ i := by
  rintro rfl
  rcases inner with inner | same | same
  · exact outside (.inl inner)
  · exact outside (.inr (.inl same))
  · exact outsideSpectrum outside same

end Outside

section Ensure
variable {K : Type*} [CommRing K] {conv : ConvolutionBuffers} {fft : Execute K} {fftGood : State K → Prop}
  {child : ℕ → Prop} {limit : ℕ} {b : ℕ → K} {v : K}

/- Changes outside of what belongs to the node. -/
theorem ConvolutionBuffers.Good.keeps {s s' : State K} (good : conv.Good fftGood b v s) (fft : fftGood s')
    (memory : ∀ i, s'.memory (conv.bTime.at i) = s.memory (conv.bTime.at i))
    (cached : ∀ i, s'.memory (conv.bFftBuf.at i) = s.memory (conv.bFftBuf.at i))
    (flag : s'.ready conv.bFftBuf.buffer = s.ready conv.bFftBuf.buffer) : conv.Good fftGood b v s' where
  fft := fft
  table i inside := (memory i).trans (good.table i inside)
  spectrum set i inside := (cached i).trans (good.spectrum (flag ▸ set) i inside)

/- A change of memory that stays out of the child, the table and its spectrum. -/
theorem ConvolutionBuffers.Good.changed (ok : Transforms fft fftGood child conv.convLength limit (dft conv.convLength v))
    {s : State K} {m : Memory K} (good : conv.Good fftGood b v s)
    (kept : ∀ a, conv.Guarded child a.buffer → m a = s.memory a) :
    conv.Good fftGood b v { s with memory := m } :=
  good.keeps (ok.keeps s _ (fun a inner => kept a (.inl inner)) (fun _ _ => rfl) good.fft)
    (fun i => kept (conv.bTime.at i) (.inr (.inl rfl))) (fun i => kept (conv.bFftBuf.at i) (.inr (.inr rfl))) rfl

/- After it the spectrum is there, whether it was computed now or before. -/
theorem ensureBFftRuns (ok : Transforms fft fftGood child conv.convLength limit (dft conv.convLength v))
    (apart : conv.Apart child) (several : 1 ≤ limit) {s : State K} (good : conv.Good fftGood b v s) :
    ∃ s', conv.ensureBFft fft s = .ok s' ∧ conv.Good fftGood b v s' ∧ s'.ready conv.bFftBuf.buffer = true ∧
      (∀ a, ¬ child a.buffer → a.buffer ≠ conv.bFftBuf.buffer → s'.memory a = s.memory a) ∧
      ∀ i, ¬ child i → i ≠ conv.bFftBuf.buffer → s'.ready i = s.ready i := by
  unfold ConvolutionBuffers.ensureBFft
  by_cases set : s.ready conv.bFftBuf.buffer = true
  · rw [if_pos set]
    exact ⟨s, rfl, good, set, fun _ _ _ => rfl, fun _ _ _ => rfl⟩
  · rw [if_neg set]
    obtain ⟨s', run, good', turned⟩ :=
      ok.runs conv.bTime conv.bFftBuf 1 several (.inr apart.timeFft) apart.time apart.spectrum s good.fft
    have kept : ∀ a : Address, ¬ child a.buffer → a.buffer ≠ conv.bFftBuf.buffer → s'.memory a = s.memory a :=
      fun a foreign other => turned.frame a foreign fun b _ k _ same => other (same ▸ rfl)
    refine ⟨{ s' with ready := Function.update s'.ready conv.bFftBuf.buffer true }, ?_, ⟨?_, ?_, ?_⟩, ?_, kept, ?_⟩
    · rw [run]
    · -- the flag is none of the child's
      refine ok.keeps s' _ (fun _ _ => rfl) (fun i inner => ?_) good'
      exact Function.update_of_ne (by rintro rfl; exact apart.spectrum inner) _ _
    · intro i inside
      exact (kept (conv.bTime.at i) apart.time apart.timeFft).trans (good.table i inside)
    · intro _ i inside
      have written := turned.writes 0 Nat.one_pos i inside
      rw [Address.row, Nat.zero_mul, Nat.zero_add] at written
      refine written.trans (dftCongr fun j hj => ?_)
      rw [Address.row, Nat.zero_mul, Nat.zero_add]
      exact good.table j hj
    · exact Function.update_self _ _ _
    · intro i foreign other
      exact (Function.update_of_ne other _ _).trans (turned.flags i foreign)

end Ensure

/- fft into work_buf, the product against the spectrum back into a_buf, fft into work_buf: once conjugated and divided
by the length, every row is the convolution with the second factor. -/
section Pair
variable {K : Type*} [Field K] [StarRing K] {conv : ConvolutionBuffers} {fft : Execute K} {fftGood : State K → Prop}
  {child touched : ℕ → Prop} {limit batch : ℕ} {b : ℕ → K} {v : K} {pointwise : Memory K → Memory K}

/- What the first transform, the product and the second transform leave. -/
structure Convolved (conv : ConvolutionBuffers) (fft : Execute K) (fftGood : State K → Prop) (child : ℕ → Prop)
    (b : ℕ → K) (v : K) (pointwise : Memory K → Memory K) (batch : ℕ) (s first second : State K) : Prop where
  forward : fft conv.aBuf conv.workBuf batch s = .ok first
  backward : fft conv.aBuf conv.workBuf batch { first with memory := pointwise first.memory } = .ok second
  spectra : ∀ r < batch, ∀ k < conv.convLength, first.memory (conv.workBuf.row conv.convLength r k) =
    dft conv.convLength v (fun i => s.memory (conv.aBuf.row conv.convLength r i)) k
  rows : ∀ r < batch, ∀ k < conv.convLength, star (second.memory (conv.workBuf.row conv.convLength r k)) / conv.convLength =
    cyclic conv.convLength (fun i => s.memory (conv.aBuf.row conv.convLength r i)) b k
  good : conv.Good fftGood b v second
  kept : ∀ a, ¬ child a.buffer → a.buffer ≠ conv.workBuf.buffer → first.memory a = s.memory a
  after : ∀ a, ¬ child a.buffer → a.buffer ≠ conv.workBuf.buffer → second.memory a = pointwise first.memory a
  flags : ∀ i, ¬ child i → second.ready i = s.ready i

theorem convolved (ok : Transforms fft fftGood child conv.convLength limit (dft conv.convLength v))
    (apart : conv.Apart child) (primitive : IsPrimitiveRoot v conv.convLength) (unit : star v = v⁻¹)
    (nonzero : (conv.convLength : K) ≠ 0) (small : batch ≤ limit) {s : State K} (good : conv.Good fftGood b v s)
    (set : s.ready conv.bFftBuf.buffer = true)
    (product : ∀ m, ∀ r < batch, ∀ k < conv.convLength, pointwise m (conv.aBuf.row conv.convLength r k) =
      star (m (conv.workBuf.row conv.convLength r k) * m (conv.bFftBuf.at k)))
    (kept : ∀ m a, conv.Guarded child a.buffer → pointwise m a = m a) :
    ∃ first second, Convolved conv fft fftGood child b v pointwise batch s first second := by
  have one := ok.runs conv.aBuf conv.workBuf batch small (.inr apart.aWork) apart.a apart.work
  obtain ⟨first, forward, firstGood, turned⟩ := one s good.fft
  have keptFirst : ∀ a, ¬ child a.buffer → a.buffer ≠ conv.workBuf.buffer → first.memory a = s.memory a :=
    fun a foreign other => turned.frame a foreign fun r _ k _ same => other (same ▸ rfl)
  have goodFirst : conv.Good fftGood b v first :=
    good.keeps firstGood (fun i => keptFirst (conv.bTime.at i) apart.time apart.timeWork)
      (fun i => keptFirst (conv.bFftBuf.at i) apart.spectrum apart.workFft.symm) (turned.flags _ apart.spectrum)
  have goodMiddle := goodFirst.changed ok (kept first.memory)
  obtain ⟨second, backward, secondGood, turned'⟩ := one _ goodMiddle.fft
  have keptSecond : ∀ a, ¬ child a.buffer → a.buffer ≠ conv.workBuf.buffer →
      second.memory a = pointwise first.memory a :=
    fun a foreign other => turned'.frame a foreign fun r _ k _ same => other (same ▸ rfl)
  have spectrum : ∀ k < conv.convLength, first.memory (conv.bFftBuf.at k) = dft conv.convLength v b k :=
    goodFirst.spectrum ((turned.flags _ apart.spectrum).trans set)
  refine ⟨first, second, forward, backward, turned.writes, fun r hr k hk => ?_, ?_, keptFirst, keptSecond, ?_⟩
  · have written := turned'.writes r hr k hk
    have middle : second.memory (conv.workBuf.row conv.convLength r k) = dft conv.convLength v (fun i =>
        star (dft conv.convLength v (fun i => s.memory (conv.aBuf.row conv.convLength r i)) i *
          dft conv.convLength v b i)) k := by
      refine written.trans (dftCongr fun i hi => ?_)
      exact (product _ r hr i hi).trans (by rw [turned.writes r hr i hi, spectrum i hi])
    rw [middle, forwardConvolution primitive unit nonzero _ _ hk, mul_div_cancel_left₀ _ nonzero]
  · exact goodMiddle.keeps secondGood (fun i => keptSecond (conv.bTime.at i) apart.time apart.timeWork)
      (fun i => keptSecond (conv.bFftBuf.at i) apart.spectrum apart.workFft.symm) (turned'.flags _ apart.spectrum)
  · exact fun i foreign => (turned'.flags i foreign).trans (turned.flags i foreign)

end Pair

end FlagFft.Compiled
