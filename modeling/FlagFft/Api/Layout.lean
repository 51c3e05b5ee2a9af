import FlagFft.Api.Descriptor
import Mathlib.Tactic.Ring
import Mathlib.Algebra.Order.BigOperators.Group.List

/-! What a supported two- or three-dimensional descriptor promises: that the advanced layout it describes is the
tightly packed one its execution reads and writes, with every distance and length the true one. -/
namespace FlagFft.Api
open Library.Words

section Layouts

def halveLast : List ℤ → List ℤ
  | [] => []
  | [n] => [n / 2 + 1]
  | n :: rest => n :: halveLast rest

/- The dimensions as they are stored, half-packed or not. -/
def storedDims (half : Bool) (dims : List ℤ) : List ℤ := if half then halveLast dims else dims

/- Row-major position by the inner dimensions; the first dimension does not enter. -/
def rowMajor (start : ℤ) : List ℤ → List ℤ → ℤ
  | dim :: dims, index :: rest => rowMajor (start * dim + index) dims rest
  | _, _ => start

/- The element an advanced layout has at an index, and the one a packed layout has. -/
def advancedOffset (embed : List ℤ) (stride dist : ℤ) (batch first : ℤ) (rest : List ℤ) : ℤ :=
  batch * dist + rowMajor first embed.tail rest * stride

def packedOffset (dims : List ℤ) (batch first : ℤ) (rest : List ℤ) : ℤ :=
  batch * dims.prod + rowMajor first dims.tail rest

def trueDims (desc : PlanDesc) : List ℤ := desc.n.map Int64.toInt

def inputDims (desc : PlanDesc) : List ℤ := storedDims desc.type.realInverse (trueDims desc)

def outputDims (desc : PlanDesc) : List ℤ := storedDims desc.type.realForward (trueDims desc)

structure ExactLayout (desc : PlanDesc) : Prop where
  inputInner : desc.inembed.tail.map Int64.toInt = (inputDims desc).tail
  outputInner : desc.onembed.tail.map Int64.toInt = (outputDims desc).tail
  inputDistance : desc.idist.toInt = (inputDims desc).prod
  outputDistance : desc.odist.toInt = (outputDims desc).prod
  length : ∀ direction originRank, (requestFromDesc desc direction originRank).fftLength.toInt = (trueDims desc).prod
  inputBatches : ∀ batch : Int64, 0 ≤ batch.toInt → batch.toInt < desc.batch.toInt →
    (batch * desc.idist).toInt = batch.toInt * (inputDims desc).prod
  outputBatches : ∀ batch : Int64, 0 ≤ batch.toInt → batch.toInt < desc.batch.toInt →
    (batch * desc.odist).toInt = batch.toInt * (outputDims desc).prod

theorem exactInputOffset {desc : PlanDesc} (exact_ : ExactLayout desc) (batch first : ℤ) (rest : List ℤ) :
    advancedOffset (desc.inembed.map Int64.toInt) 1 desc.idist.toInt batch first rest =
      packedOffset (inputDims desc) batch first rest := by
  unfold advancedOffset packedOffset
  rw [← List.map_tail, exact_.inputInner, exact_.inputDistance, mul_one]

theorem exactOutputOffset {desc : PlanDesc} (exact_ : ExactLayout desc) (batch first : ℤ) (rest : List ℤ) :
    advancedOffset (desc.onembed.map Int64.toInt) 1 desc.odist.toInt batch first rest =
      packedOffset (outputDims desc) batch first rest := by
  unfold advancedOffset packedOffset
  rw [← List.map_tail, exact_.outputInner, exact_.outputDistance, mul_one]

end Layouts

section Dimensions

def intDims (values : Ints) (rank : Int32) : List ℤ := (List.range rank.toInt.toNat).map fun i => (values i).toInt

theorem copyDimsExact (values : Ints) (rank : Int32) : (copyDims values rank).map Int64.toInt = intDims values rank := by
  unfold copyDims intDims
  rw [List.map_map]
  exact List.map_congr_left fun i _ => Int32.toInt_toInt64 _

theorem halveLastBounds {dims : List ℤ} (positive : ∀ n ∈ dims, 0 < n) :
    0 < (halveLast dims).prod ∧ (halveLast dims).prod ≤ dims.prod := by
  induction dims using halveLast.induct with
  | case1 => exact ⟨Int.one_pos, Int.le_refl _⟩
  | case2 n =>
    have first := positive n List.mem_cons_self
    simp only [halveLast, List.prod_cons, List.prod_nil, mul_one]
    omega
  | case3 n rest more ih =>
    have first := positive n List.mem_cons_self
    obtain ⟨lower, upper⟩ := ih fun m inside => positive m (List.mem_cons_of_mem _ inside)
    rw [halveLast.eq_3 _ _ more, List.prod_cons, List.prod_cons]
    exact ⟨mul_pos first lower, mul_le_mul_of_nonneg_left upper first.le⟩

theorem prodPositive {dims : List ℤ} (positive : ∀ n ∈ dims, 0 < n) : 0 < dims.prod :=
  (halveLastBounds positive).1.trans_le (halveLastBounds positive).2

theorem storedDimsBounds (half : Bool) {dims : List ℤ} (positive : ∀ n ∈ dims, 0 < n) :
    0 < (storedDims half dims).prod ∧ (storedDims half dims).prod ≤ dims.prod := by
  cases half with
  | true => exact halveLastBounds positive
  | false => exact ⟨prodPositive positive, Int.le_refl _⟩

end Dimensions

section Supported
variable {desc : PlanDesc} {n0 n1 n2 : Int64}

theorem planeWraps (half : Bool) (positive : 0 ≤ n1.toInt) :
    (if half then n0 * (n1 / 2 + 1) else n0 * n1).toInt =
      (storedDims half [n0.toInt, n1.toInt]).prod.bmod (2 ^ 64) := by
  cases half with
  | true => simp [storedDims, halveLast, halfExact positive]
  | false => simp [storedDims]

theorem volumeWraps (half : Bool) (positive : 0 ≤ n2.toInt) :
    (if half then n0 * n1 * (n2 / 2 + 1) else n0 * n1 * n2).toInt =
      (storedDims half [n0.toInt, n1.toInt, n2.toInt]).prod.bmod (2 ^ 64) := by
  cases half with
  | true => simp [storedDims, halveLast, halfExact positive, mul_assoc]
  | false => simp [storedDims, mul_assoc]

/- What both checks establish: unit strides, and distances that are the products as far as words go. -/
structure Tight (desc : PlanDesc) : Prop where
  rank : desc.rank ≠ 1
  dims : desc.n.length = 2 ∨ desc.n.length = 3
  istride : desc.istride = 1
  ostride : desc.ostride = 1
  input : desc.idist.toInt = (inputDims desc).prod.bmod (2 ^ 64)
  output : desc.odist.toInt = (outputDims desc).prod.bmod (2 ^ 64)

theorem supported2Tight (supported : isSupported2dDesc desc = true) : Tight desc := by
  unfold isSupported2dDesc at supported
  split at supported
  · cases supported
  · rename_i rank
    split at supported
    · cases supported
    · split at supported
      · rename_i n0 n1 dims
        split at supported
        · cases supported
        · rename_i sizes
          split at supported
          · cases supported
          · rename_i strides
            simp only [ite_eq_right_iff, reduceCtorEq, imp_false, not_or, not_not] at supported sizes strides rank
            have positive : 0 ≤ n1.toInt := by
              have known := sizes.2
              rw [Int64.le_iff_toInt_le] at known
              exact (Int.not_le.mp known).le
            refine ⟨by rw [rank.1]; decide, Or.inl (by rw [dims]; rfl), strides.1, strides.2, ?_, ?_⟩
            · rw [supported.1, planeWraps _ positive, inputDims, trueDims, dims]
              rfl
            · rw [supported.2, planeWraps _ positive, outputDims, trueDims, dims]
              rfl
      · cases supported

theorem supported3Tight (supported : isSupported3dDesc desc = true) : Tight desc := by
  unfold isSupported3dDesc at supported
  split at supported
  · cases supported
  · rename_i rank
    split at supported
    · cases supported
    · split at supported
      · rename_i n0 n1 n2 dims
        split at supported
        · cases supported
        · rename_i sizes
          split at supported
          · cases supported
          · rename_i strides
            simp only [ite_eq_right_iff, reduceCtorEq, imp_false, not_or, not_not] at supported sizes strides rank
            have positive : 0 ≤ n2.toInt := by
              have known := sizes.2.2
              rw [Int64.le_iff_toInt_le] at known
              exact (Int.not_le.mp known).le
            refine ⟨by rw [rank.1]; decide, Or.inr (by rw [dims]; rfl), strides.1, strides.2, ?_, ?_⟩
            · rw [supported.1, volumeWraps _ positive, inputDims, trueDims, dims]
              rfl
            · rw [supported.2, volumeWraps _ positive, outputDims, trueDims, dims]
              rfl
      · cases supported

end Supported

section Claim
variable {arguments : PlanManyArguments} {n : Ints} {desc : PlanDesc}

/- The inner dimensions of an embedding that is given are those of the stored data. -/
def PlainEmbed (embed : Option Ints) (rank : Int32) (half : Bool) (n : Ints) : Prop :=
  ∀ values, embed = some values → (intDims values rank).tail = (storedDims half (intDims n rank)).tail

structure PlainArguments (arguments : PlanManyArguments) (n : Ints) : Prop where
  inembed : PlainEmbed arguments.inembed arguments.rank arguments.type.realInverse n
  onembed : PlainEmbed arguments.onembed arguments.rank arguments.type.realForward n
  fits : (intDims n arguments.rank).prod < 2 ^ 63

theorem describedDims (described : Describes arguments desc n) : trueDims desc = intDims n arguments.rank := by
  unfold trueDims
  rw [described.n_, copyDimsExact]

theorem describedPositive (described : Describes arguments desc n) : ∀ dim ∈ trueDims desc, 0 < dim := by
  rw [describedDims described]
  intro dim inside
  obtain ⟨i, small, rfl⟩ := List.mem_map.mp inside
  exact described.positive i (List.mem_range.mp small)

theorem defaultEmbedExact (half : Bool) {dims : List Int64} (length : dims.length = 2 ∨ dims.length = 3)
    (positive : ∀ dim ∈ dims.map Int64.toInt, 0 < dim) :
    (defaultEmbed half dims).map Int64.toInt = storedDims half (dims.map Int64.toInt) := by
  cases half with
  | false => cases dims <;> rfl
  | true =>
    match dims, length with
    | [n0, n1], _ =>
      have last : 0 ≤ n1.toInt := (positive _ (by simp)).le
      simp [defaultEmbed, storedDims, halveLast, halfExact last]
    | [n0, n1, n2], _ =>
      have last : 0 ≤ n2.toInt := (positive _ (by simp)).le
      simp [defaultEmbed, storedDims, halveLast, halfExact last]

/- An embedding fits the data just when it is left out or plain. -/
theorem embedExact (embed : Option Ints) (half : Bool) (described : Describes arguments desc n)
    (length : desc.n.length = 2 ∨ desc.n.length = 3) :
    (effectiveEmbed embed arguments.rank half desc.n).tail.map Int64.toInt = (storedDims half (trueDims desc)).tail ↔
      PlainEmbed embed arguments.rank half n := by
  unfold effectiveEmbed PlainEmbed
  cases embed with
  | none =>
    have default := defaultEmbedExact half length (describedPositive described)
    simp only [List.map_tail, default, trueDims, reduceCtorEq, false_imp_iff, implies_true]
  | some values =>
    simp only [List.map_tail, copyDimsExact, describedDims described, Option.some.injEq, forall_eq']

theorem batchExact {batch dist : Int64} {count : Int32} {step : Int32} {size : ℤ} (distance : dist = step.toInt64)
    (exact_ : dist.toInt = size) (lower : 0 ≤ batch.toInt) (upper : batch.toInt < count.toInt64.toInt) :
    (batch * dist).toInt = batch.toInt * size := by
  have steps := step.toInt_lt
  have steps' := step.le_toInt
  have counts := count.toInt_lt
  rw [Int32.toInt_toInt64] at upper
  have size_ : dist.toInt = step.toInt := by rw [distance, Int32.toInt_toInt64]
  rw [mulExact, exact_]
  · rw [size_]
    nlinarith
  · rw [size_]
    nlinarith

/- The length, the distances and the batches are exact as soon as the dimensions multiply to a word. -/
theorem fitsExact (described : Describes arguments desc n) (tight : Tight desc) (fits : (trueDims desc).prod < 2 ^ 63) :
    desc.idist.toInt = (inputDims desc).prod ∧ desc.odist.toInt = (outputDims desc).prod := by
  have positive := describedPositive described
  obtain ⟨inputLower, inputUpper⟩ := storedDimsBounds desc.type.realInverse positive
  obtain ⟨outputLower, outputUpper⟩ := storedDimsBounds desc.type.realForward positive
  constructor
  · rw [tight.input]
    exact (wrapsExactly inputLower.le).mpr (inputUpper.trans_lt fits)
  · rw [tight.output]
    exact (wrapsExactly outputLower.le).mpr (outputUpper.trans_lt fits)

theorem lengthWraps (tight : Tight desc) (direction : String) (originRank : Int64) :
    (requestFromDesc desc direction originRank).fftLength.toInt = (trueDims desc).prod.bmod (2 ^ 64) := by
  unfold requestFromDesc
  simp only [tight.rank, if_false]
  exact productWraps desc.n

/- An accepted descriptor of rank two or three describes the packed layout exactly when no embedding that is given
pads the data and the dimensions multiply to a 64-bit word. -/
theorem acceptedLayoutExact (arguments : PlanManyArguments) (n : Ints) (desc : PlanDesc) (given : arguments.n = some n)
    (built : planMany arguments = .ok desc) (accepted : isSupported2dDesc desc = true ∨ isSupported3dDesc desc = true) :
    ExactLayout desc ↔ PlainArguments arguments n := by
  obtain ⟨n', described⟩ := planManyDescribes built
  cases Option.some.inj (given.symm.trans described.dims)
  have tight : Tight desc := accepted.elim supported2Tight supported3Tight
  have input := embedExact arguments.inembed arguments.type.realInverse described tight.dims
  have output := embedExact arguments.onembed arguments.type.realForward described tight.dims
  rw [← described.inembed, ← described.type] at input
  rw [← described.onembed, ← described.type] at output
  have size := (prodPositive (describedPositive described)).le
  constructor
  · intro layout
    have length := layout.length "forward" 0
    rw [lengthWraps tight, wrapsExactly size, describedDims described] at length
    exact ⟨by rw [← described.type]; exact input.mp layout.inputInner,
      by rw [← described.type]; exact output.mp layout.outputInner, length⟩
  · intro plain
    have fits : (trueDims desc).prod < 2 ^ 63 := by
      rw [describedDims described]
      exact plain.fits
    obtain ⟨inputDistance, outputDistance⟩ := fitsExact described tight fits
    refine ⟨?_, ?_, inputDistance, outputDistance, ?_, ?_, ?_⟩
    · exact input.mpr (by rw [described.type]; exact plain.inembed)
    · exact output.mpr (by rw [described.type]; exact plain.onembed)
    · intro direction originRank
      rw [lengthWraps tight]
      exact (wrapsExactly size).mpr fits
    · intro batch lower upper
      rw [described.batch] at upper
      exact batchExact described.idist inputDistance lower upper
    · intro batch lower upper
      rw [described.batch] at upper
      exact batchExact described.odist outputDistance lower upper

end Claim

section Examples

def planeArguments (inner : Int32) : PlanManyArguments :=
  { rank := 2, n := some fun _ => 4, inembed := some fun i => if i = 0 then 4 else inner, istride := 1, idist := 16
    onembed := none, ostride := 1, odist := 16, type := .c2c, batch := 3 }

def planeDesc (inner : Int64) : PlanDesc :=
  { rank := 2, n := [4, 4], inembed := [4, inner], istride := 1, idist := 16, onembed := [4, 4], ostride := 1, odist := 16
    batch := 3, type := .c2c, precision := .float32, realInput := false, realOutput := false }

/- A volume of 2^65 elements. -/
def volumeDims : Ints := fun i => if i = 2 then 2097152 else 4194304

def volumeArguments : PlanManyArguments :=
  { rank := 3, n := some volumeDims, inembed := none, istride := 1, idist := 0, onembed := none, ostride := 1, odist := 0
    type := .c2c, batch := 1 }

def volumeDesc : PlanDesc :=
  { rank := 3, n := [4194304, 4194304, 2097152], inembed := [4194304, 4194304, 2097152], istride := 1, idist := 0
    onembed := [4194304, 4194304, 2097152], ostride := 1, odist := 0, batch := 1, type := .c2c, precision := .float32
    realInput := false, realOutput := false }

theorem acceptedLayoutExactPlane : ExactLayout (planeDesc 4) ↔ PlainArguments (planeArguments 4) fun _ => 4 :=
  acceptedLayoutExact (planeArguments 4) (fun _ => 4) (planeDesc 4) rfl rfl (Or.inl rfl)

/- A padded embedding is accepted, and so is a volume whose number of elements wraps to its distance of zero. -/
theorem acceptedLayoutPadded :
    (planMany (planeArguments 8) = .ok (planeDesc 8) ∧ isSupported2dDesc (planeDesc 8) = true ∧
      ¬ ExactLayout (planeDesc 8)) ∧
    (planMany volumeArguments = .ok volumeDesc ∧ isSupported3dDesc volumeDesc = true ∧ ¬ ExactLayout volumeDesc) := by
  refine ⟨⟨rfl, rfl, ?_⟩, ⟨rfl, rfl, ?_⟩⟩
  · intro layout
    exact absurd layout.inputInner (by decide)
  · intro layout
    exact absurd layout.inputDistance (by decide)

end Examples

end FlagFft.Api
