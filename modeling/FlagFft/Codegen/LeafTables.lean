import FlagFft.Codegen.StageLanes
import FlagFft.FourStep.Kernels

/-! The tables a leaf is launched with, and the tables its generated kernel reads. The host and the generator decide on
the portable stage layout apart, each from its own view of the request and the environment. -/
namespace FlagFft.Codegen

inductive LeafIoMode where
  | contiguous
  | strided
  | permutedStore
  | stridedPermutedStore
  | permutedStoreR2C
  | contiguousR2C
  | permutedR2C
  | packedR2C
  | packedC2R
  | contiguousC2R
  | bluesteinPrepareLeaf
  | bluesteinFinishLeaf
  | bluesteinFullLeaf
  | raderFullLeaf
  | raderPrepareLeaf
  | raderFinishLeaf
  | bluesteinFourStepPrepareRow
  | bluesteinFourStepPointwiseRow
  | bluesteinFourStepFinishCol
  | fourStepRow
  | fourStepRealRow
  | fourStepHermitianRow
  | fourStepCol
  | fourStepRowStrided
  | fourStepColStrided
  | fourStepR2CCol
  | fourStepC2RCol
  deriving DecidableEq, Repr

def rowModes : List LeafIoMode := [.fourStepRow, .fourStepRealRow, .fourStepHermitianRow]

def colModes : List LeafIoMode := [.fourStepCol, .fourStepR2CCol, .fourStepC2RCol]

def stridedModes : List LeafIoMode := [.fourStepRowStrided, .fourStepColStrided]

section Policies

/- The fields of a request that the policies read. -/
structure FftRequest where
  deviceType : String
  deviceArch : String
  rawDim : ℤ
  originRank : ℤ
  batch : ℤ
  fftLength : ℤ
  requestedN : ℤ
  inputDtype : String
  outputDtype : String
  inputStrides : List ℤ
  packedRealChild : Bool
  deriving DecidableEq, Repr

def settingEnabled (environment : Environment) (name : String) : Except String Bool :=
  match environment name with
  | none => .ok true
  | some value =>
    if value = "1" then .ok true else if value = "0" then .ok false else .error (name ++ " must be 0 or 1")

/- A one-dimensional single precision request on the measured device, with contiguous rows. -/
def ixCandidate (request : FftRequest) (batch : ℤ) : Bool :=
  request.deviceType == "ix" && request.deviceArch == "71" && request.rawDim == 1 && request.batch == batch &&
    request.fftLength == request.requestedN && request.inputDtype == "complex64" &&
    request.outputDtype == "complex64" && request.inputStrides.getLast? == some 1

def ixCtSinglePolicyEnabled (environment : Environment) (request : FftRequest) : Except String Bool :=
  if ixCandidate request 1 && [1024, 2048, 16384].contains request.requestedN then
    settingEnabled environment "FLAGFFT_IX_CT_SINGLE"
  else .ok false

def ixCtBatchPolicyEnabled (environment : Environment) (request : FftRequest) : Except String Bool :=
  let measured1dBatch := decide (request.originRank ≤ 1) && ([16384, 8191, 16381].contains request.requestedN ||
    (request.requestedN == 8192 && request.packedRealChild))
  let qualifiedLength := [1024, 2048].contains request.requestedN || measured1dBatch
  if ixCandidate request 64 && qualifiedLength then settingEnabled environment "FLAGFFT_IX_CT_BATCH" else .ok false

def markedModes : List LeafIoMode :=
  [.contiguous, .strided, .permutedStore, .stridedPermutedStore, .contiguousR2C, .contiguousC2R]

/- The flag of the kernel key, for the kinds that set it. -/
def npuPortableLeaf (environment : Environment) (request : FftRequest) (mode : LeafIoMode) : Bool :=
  let allow3dLeaf := request.deviceType == "npu" && request.originRank == 3 &&
    ((environment "FLAGFFT_NPU_3D_LEAF").map (· == "1")).getD true
  markedModes.contains mode && request.deviceType == "npu" && (request.originRank == 2 || allow3dLeaf)

end Policies

/- One compilation of a leaf: the request the policies were last configured from, and the request of the leaf. -/
structure LeafCompile where
  backend : Backend
  environment : Environment
  configured : FftRequest
  request : FftRequest
  mode : LeafIoMode
  n1 : ℕ
  n2 : ℕ

inductive Part where
  | real
  | imag
  deriving DecidableEq, Repr

section Host

inductive LeafTable where
  | stageTwiddles (stage lanes : ℕ) (part : Part)
  | dftMatrix (radix : ℕ) (part : Part)
  deriving DecidableEq, Repr

def portableIx (c : LeafCompile) : Except String Bool :=
  if c.backend = .ix then
    match c.environment "FLAGFFT_IX_PORTABLE_LEAF" with
    | some value => .ok (value == "1")
    | none => do
      if ← ixCtSinglePolicyEnabled c.environment c.request then return true
      else ixCtBatchPolicyEnabled c.environment c.request
  else .ok false

def hostStageLanes (c : LeafCompile) (leaf : LeafPlanNode) (portable : Bool) (stage : ℕ) : ℕ :=
  let radix := leaf.factors.getD stage 1
  if c.backend = .maca ∨ portable then leaf.length / radix else fixedStageLanes leaf c.request.inputDtype radix

def leafTables (leaf : LeafPlanNode) (lanes : ℕ → ℕ) : List LeafTable :=
  (List.range' 1 (leaf.factors.length - 1)).flatMap (fun stage =>
    [.stageTwiddles stage (lanes stage) .real, .stageTwiddles stage (lanes stage) .imag]) ++
  leaf.genericRadices.flatMap fun radix => [.dftMatrix radix .real, .dftMatrix radix .imag]

def buildRawLeafTables (c : LeafCompile) (leaf : LeafPlanNode) : Except String (List LeafTable) := do
  let portable ← portableIx c
  return leafTables leaf (hostStageLanes c leaf portable)

end Host

section Kernel

inductive LeafParam where
  | inPtr
  | twiddlePtr
  | outPtr
  | packedTwiddlePtr
  | chirpPtr
  | bFftPtr
  | idxPtr
  | originalPtr
  | stageTwiddle (stage : ℕ) (part : Part)
  | dftMatrix (radix : ℕ) (part : Part)
  | outerStride
  | permSpan
  | inputDistance
  | outputDistance
  | nbatch
  deriving DecidableEq, Repr

def LeafParam.isTable : LeafParam → Bool
  | .stageTwiddle _ _ | .dftMatrix _ _ => true
  | _ => false

def LeafTable.param : LeafTable → LeafParam
  | .stageTwiddles stage _ part => .stageTwiddle stage part
  | .dftMatrix radix part => .dftMatrix radix part

def leafTableParams (leaf : LeafPlanNode) : List LeafParam :=
  (List.range' 1 (leaf.factors.length - 1)).flatMap (fun stage =>
    [.stageTwiddle stage .real, .stageTwiddle stage .imag]) ++
  leaf.genericRadices.flatMap fun radix => [.dftMatrix radix .real, .dftMatrix radix .imag]

def leafKernelParams (leaf : LeafPlanNode) (includeFourStepTwiddle : Bool) : List LeafParam :=
  [.inPtr] ++ (if includeFourStepTwiddle then [.twiddlePtr] else []) ++ [.outPtr] ++ leafTableParams leaf

def insertAt (index : ℕ) (inserted params : List LeafParam) : List LeafParam :=
  params.take index ++ inserted ++ params.drop index

def leafKernelParamsForIo (leaf : LeafPlanNode) (mode : LeafIoMode) (includeFourStepTwiddle : Bool) : List LeafParam :=
  let params := leafKernelParams leaf includeFourStepTwiddle
  let params := if mode ∈ [.packedR2C, .packedC2R] then insertAt 2 [.packedTwiddlePtr] params else params
  let params := if mode = .strided then params ++ [.outerStride] else params
  let params := if mode ∈ [.permutedStore, .stridedPermutedStore] then params ++ [.permSpan]
    else if mode = .permutedStoreR2C then params ++ [.inputDistance, .permSpan] else params
  let params := match mode with
    | .bluesteinPrepareLeaf => insertAt 1 [.chirpPtr] params
    | .bluesteinFinishLeaf | .bluesteinFullLeaf => insertAt 1 [.bFftPtr, .chirpPtr] params
    | .raderFullLeaf => insertAt 1 [.bFftPtr, .idxPtr] params
    | .raderPrepareLeaf => insertAt 1 [.idxPtr] params
    | .raderFinishLeaf => insertAt 1 [.bFftPtr, .idxPtr, .originalPtr] params
    | .bluesteinFourStepPrepareRow | .bluesteinFourStepFinishCol => insertAt 1 [.chirpPtr] params
    | .bluesteinFourStepPointwiseRow => insertAt 1 [.bFftPtr] params
    | _ => params
  let params := if mode ∈ [.contiguousR2C, .permutedR2C, .packedR2C, .packedC2R, .contiguousC2R, .fourStepRealRow,
      .fourStepHermitianRow] then params ++ [.inputDistance] else params
  let params := if mode ∈ [.contiguousR2C, .permutedR2C, .packedR2C, .contiguousC2R, .fourStepR2CCol, .fourStepC2RCol]
    then params ++ [.outputDistance] else params
  let params := if mode ∈ stridedModes then params ++ [.outerStride] else params
  let params := if mode = .permutedR2C then params ++ [.permSpan] else params
  params ++ [.nbatch]

def naturalOrderCodeletRadices : List ℕ := [2, 3, 4, 5, 6, 7, 8, 9, 10, 11, 12, 13, 15, 17, 19]

def threadLocalMixedRadices : List ℕ := [18, 20, 24, 25, 27, 28, 30, 32]

/- Short leaves stay in the registers of one codelet in the portable layout. -/
def singleCodelet (leaf : LeafPlanNode) (dtype : String) (mode : LeafIoMode) : Bool :=
  !(leaf.length == 32 && dtype == "complex128" && leaf.factors == [4, 4, 2]) &&
    !(mode == .bluesteinFullLeaf || mode == .raderFullLeaf) &&
    (naturalOrderCodeletRadices ++ threadLocalMixedRadices ++ [16]).contains leaf.length

def emittedLeafFactors (portable : Bool) (leaf : LeafPlanNode) (dtype : String) (mode : LeafIoMode) : List ℕ :=
  if portable && singleCodelet leaf dtype mode then [leaf.length] else leaf.factors

/- str.strip and str.lower -/
def pythonSpaces : List ℕ :=
  [9, 10, 11, 12, 13, 28, 29, 30, 31, 32, 133, 160, 5760, 8192, 8193, 8194, 8195, 8196, 8197, 8198, 8199, 8200, 8201,
    8202, 8232, 8233, 8239, 8287, 12288]

def stripLower (value : String) : String :=
  let blank := fun c : Char => pythonSpaces.contains c.toNat
  String.ofList (((value.toList.dropWhile blank).reverse.dropWhile blank).reverse.map Char.toLower)

def withVariable (environment : Environment) (name value : String) : Environment := fun other =>
  if other = name then some value else environment other

/- The environment of the generator: its entry point and its emitter set two variables. -/
def LeafCompile.leafEnvironment (c : LeafCompile) : Environment :=
  let environment := if npuPortableLeaf c.environment c.request c.mode then
    withVariable c.environment "FLAGFFT_NPU_FOURSTEP_LEAF" "1" else c.environment
  if c.mode = .packedR2C ∧ c.backend = .ix ∧ environment "FLAGFFT_IX_3D_PACKED_R2C" = some "1" then
    withVariable environment "FLAGFFT_IX_PORTABLE_LEAF" "1"
  else environment

/- _maca_knob("PORTABLE_LEAF") on that backend -/
def ixPortableLeafKnob (environment : Environment) (ixCtSingle ixCtBatch : Bool) : String :=
  stripLower ((environment "FLAGFFT_IX_PORTABLE_LEAF").getD (if ixCtSingle || ixCtBatch then "1" else ""))

def portableLeafBackendActive (backend : Backend) (environment : Environment) (ixCtSingle ixCtBatch : Bool) : Bool :=
  backend == .maca || (backend == .npu && environment "FLAGFFT_NPU_FOURSTEP_LEAF" == some "1") ||
    (backend == .ix && ixPortableLeafKnob environment ixCtSingle ixCtBatch == "1")

def LeafCompile.target (c : LeafCompile) (portable : Bool) : FourStep.Target :=
  ⟨c.backend != .cuda, portable, dtypeIsDouble c.request.inputDtype⟩

def useThreadLocalMixedLeaf (c : LeafCompile) (leaf : LeafPlanNode) (portable : Bool) : Bool :=
  match leaf.factors with
  | [registerRadix, crossRadix] =>
    let expectedLength := if c.mode ∈ rowModes then c.n1 else c.n2
    c.backend == .cuda && (rowModes ++ colModes).contains c.mode &&
      ["complex64", "complex128"].contains c.request.inputDtype && threadLocalMixedRadices.contains registerRadix &&
      crossRadix == 32 && leaf.length == registerRadix * crossRadix && leaf.length == expectedLength &&
      (FourStep.useTleFusedTwiddle (c.target portable) c.n1 c.n2 ||
        FourStep.useFourStepRowFusedTwiddle (c.target portable) c.n1 c.n2)
  | _ => false

def includeFourStepTwiddle (mode : LeafIoMode) (fuse : Bool) : Bool :=
  if fuse then mode ∈ [.fourStepRow, .bluesteinFourStepPrepareRow, .bluesteinFourStepPointwiseRow, .fourStepRealRow,
    .fourStepHermitianRow]
  else mode ∈ [.fourStepCol, .fourStepColStrided, .fourStepR2CCol, .fourStepC2RCol, .bluesteinFourStepFinishCol]

/- The parameters of a kernel, and the lanes with which it indexes the twiddles of each stage. -/
structure GeneratedLeaf where
  params : List LeafParam
  stageReads : List (ℕ × ℕ)
  deriving DecidableEq, Repr

def stageReads (factors stageLanes : List ℕ) : List (ℕ × ℕ) :=
  (List.range' 1 (factors.length - 1)).map fun stage => (stage, stageLanes.getD stage 1)

def generateLeaf (c : LeafCompile) (leaf : LeafPlanNode) : Except String GeneratedLeaf := do
  let ixCtSingle ← ixCtSinglePolicyEnabled c.environment c.configured
  let ixCtBatch ← ixCtBatchPolicyEnabled c.environment c.configured
  let portable := portableLeafBackendActive c.backend c.leafEnvironment ixCtSingle ixCtBatch
  let dtype := c.request.inputDtype
  if useThreadLocalMixedLeaf c leaf portable then
    -- inner_tw_idx = idx + register_radix * fft_thread
    return ⟨leafKernelParamsForIo leaf c.mode (c.mode ∈ rowModes), [(1, leaf.factors.getD 0 1)]⟩
  else if c.mode = .packedR2C ∧ !portable then
    throw "packed R2C leaf requires the portable exchange path"
  else
    let factors := emittedLeafFactors portable leaf dtype c.mode
    let stageLanes ← if portable then pure (factors.map (leaf.length / ·)) else cooperativeStageLanesFor portable leaf dtype
    let fuse := if c.mode ∈ stridedModes then false
      else FourStep.useFourStepRowFusedTwiddle (c.target portable) c.n1 c.n2
    return ⟨leafKernelParamsForIo leaf c.mode (includeFourStepTwiddle c.mode fuse), stageReads factors stageLanes⟩

end Kernel

/- The uploaded tables are the table parameters of the kernel, in order, and every stage is indexed by the lanes its
table was built for. -/
structure Agrees (tables : List LeafTable) (kernel : GeneratedLeaf) : Prop where
  params : ∃ before after, kernel.params = before ++ tables.map LeafTable.param ++ after ∧
    ∀ param ∈ before ++ after, param.isTable = false
  lanes : ∀ stage lanes part, (stage, lanes) ∈ kernel.stageReads → LeafTable.stageTwiddles stage lanes part ∈ tables

/- Every later stage runs all its codelets at once, also outside the portable layout. -/
def FullLanes (leaf : LeafPlanNode) (dtype : String) : Prop :=
  ∀ stage, 1 ≤ stage → stage < leaf.factors.length →
    if useCooperativeStageLanes leaf dtype then leaf.length / leaf.factors.getD stage 1 ≤ maxLanes
    else leaf.length / leaf.factors.getD stage 1 = leaf.lanes

def policiesOn (environment : Environment) (request : FftRequest) : Prop :=
  ixCtSinglePolicyEnabled environment request = .ok true ∨ ixCtBatchPolicyEnabled environment request = .ok true

def LeafCompile.ixHostPortable (c : LeafCompile) : Prop :=
  match c.environment "FLAGFFT_IX_PORTABLE_LEAF" with
  | some value => value = "1"
  | none => policiesOn c.environment c.request

def LeafCompile.ixKernelPortable (c : LeafCompile) : Prop :=
  match c.leafEnvironment "FLAGFFT_IX_PORTABLE_LEAF" with
  | some value => stripLower value = "1"
  | none => policiesOn c.environment c.configured

def LeafCompile.npuKernelPortable (c : LeafCompile) : Prop :=
  c.leafEnvironment "FLAGFFT_NPU_FOURSTEP_LEAF" = some "1"

/- Where the two decisions may differ, and the leaves for which that does not matter. -/
def SameLayout (c : LeafCompile) (leaf : LeafPlanNode) : Prop :=
  let dtype := c.request.inputDtype
  match c.backend with
  | .cuda | .musa | .hcu | .ppu | .maca => True
  | .npu => (c.npuKernelPortable → singleCodelet leaf dtype c.mode) ∨ FullLanes leaf dtype
  | .ix => (c.ixKernelPortable ↔ c.ixHostPortable) ∨ (c.ixKernelPortable ∧ singleCodelet leaf dtype c.mode) ∨
      FullLanes leaf dtype

section Params

/- The tables follow each other, behind at least the two buffers. -/
structure Framed (tables params : List LeafParam) : Prop where
  split : ∃ before after, params = before ++ tables ++ after ∧ 2 ≤ before.length ∧
    ∀ param ∈ before ++ after, param.isTable = false

variable {tables params : List LeafParam} {leaf : LeafPlanNode} {c : LeafCompile}

theorem Framed.append (ok : Framed tables params) {added : List LeafParam}
    (plain : ∀ param ∈ added, param.isTable = false) : Framed tables (params ++ added) := by
  obtain ⟨before, after, rfl, front, outside⟩ := ok.split
  refine ⟨before, after ++ added, by simp, front, fun param member => ?_⟩
  simp only [List.mem_append] at member outside
  rcases member with here | here | here
  · exact outside param (.inl here)
  · exact outside param (.inr here)
  · exact plain param here

theorem Framed.insert (ok : Framed tables params) {index : ℕ} (low : index ≤ 2) {inserted : List LeafParam}
    (plain : ∀ param ∈ inserted, param.isTable = false) : Framed tables (insertAt index inserted params) := by
  obtain ⟨before, after, rfl, front, outside⟩ := ok.split
  have inside : index ≤ before.length := low.trans front
  refine ⟨before.take index ++ inserted ++ before.drop index, after, ?_, ?_, fun param member => ?_⟩
  · rw [insertAt, List.append_assoc before, List.take_append_of_le_length inside, List.drop_append_of_le_length inside]
    simp
  · simp only [List.length_append, List.length_take, List.length_drop]
    omega
  · simp only [List.mem_append] at member outside
    rcases member with ((here | here) | here) | here
    · exact outside param (.inl (List.mem_of_mem_take here))
    · exact plain param here
    · exact outside param (.inl (List.mem_of_mem_drop here))
    · exact outside param (.inr here)

theorem leafKernelParamsFramed (leaf : LeafPlanNode) (twiddle : Bool) :
    Framed (leafTableParams leaf) (leafKernelParams leaf twiddle) := by
  refine ⟨[.inPtr] ++ (if twiddle then [.twiddlePtr] else []) ++ [.outPtr], [], by simp [leafKernelParams], ?_, ?_⟩
  · cases twiddle <;> simp
  · cases twiddle <;> simp [LeafParam.isTable]

theorem leafKernelParamsForIoFramed (leaf : LeafPlanNode) (mode : LeafIoMode) (twiddle : Bool) :
    Framed (leafTableParams leaf) (leafKernelParamsForIo leaf mode twiddle) := by
  have base := leafKernelParamsFramed leaf twiddle
  unfold leafKernelParamsForIo
  cases mode <;> simp only [stridedModes, List.mem_cons, List.not_mem_nil, reduceCtorEq, or_false, or_true, if_true,
    if_false]
  all_goals repeat' first
    | exact base
    | with_reducible refine Framed.insert ?_ (by simp) (by simp [LeafParam.isTable])
    | with_reducible refine Framed.append ?_ (by simp [LeafParam.isTable])

end Params

section Tables

variable {leaf : LeafPlanNode} {lanesOf : ℕ → ℕ} {stage lanes : ℕ} {part : Part} {kernel : GeneratedLeaf}

theorem tableParams (leaf : LeafPlanNode) (lanesOf : ℕ → ℕ) :
    (leafTables leaf lanesOf).map LeafTable.param = leafTableParams leaf := by
  simp [leafTables, leafTableParams, List.map_flatMap, LeafTable.param]

theorem memTables : LeafTable.stageTwiddles stage lanes part ∈ leafTables leaf lanesOf ↔
    1 ≤ stage ∧ stage < leaf.factors.length ∧ lanes = lanesOf stage := by
  simp only [leafTables, List.mem_append, List.mem_flatMap, List.mem_range'_1, List.mem_cons, List.not_mem_nil, or_false,
    LeafTable.stageTwiddles.injEq, reduceCtorEq, and_false, exists_false, or_self]
  constructor
  · rintro ⟨at_, inside, ⟨rfl, rfl, _⟩ | ⟨rfl, rfl, _⟩⟩
    · exact ⟨inside.1, by omega, rfl⟩
    · exact ⟨inside.1, by omega, rfl⟩
  · rintro ⟨low, high, rfl⟩
    refine ⟨stage, ⟨low, by omega⟩, ?_⟩
    cases part
    · exact .inl ⟨rfl, rfl, rfl⟩
    · exact .inr ⟨rfl, rfl, rfl⟩

/- The parameters always agree; what is left are the lanes. -/
theorem agreesIff {mode : LeafIoMode} {twiddle : Bool} (params : kernel.params = leafKernelParamsForIo leaf mode twiddle) :
    Agrees (leafTables leaf lanesOf) kernel ↔
      ∀ stage lanes, (stage, lanes) ∈ kernel.stageReads → 1 ≤ stage ∧ stage < leaf.factors.length ∧ lanes = lanesOf stage := by
  obtain ⟨before, after, split, _, outside⟩ := (leafKernelParamsForIoFramed leaf mode twiddle).split
  constructor
  · intro agrees stage lanes read
    exact memTables.mp (agrees.lanes stage lanes .real read)
  · intro lanes
    have order : kernel.params = before ++ (leafTables leaf lanesOf).map LeafTable.param ++ after := by
      rw [params, split, tableParams]
    exact ⟨⟨before, after, order, outside⟩, fun stage count part read => memTables.mpr (lanes stage count read)⟩

theorem memStageReads {factors : List ℕ} {step : ℕ → ℕ} : (stage, lanes) ∈ stageReads factors (factors.map step) ↔
    1 ≤ stage ∧ stage < factors.length ∧ lanes = step (factors.getD stage 1) := by
  simp only [stageReads, List.mem_map, List.mem_range'_1, Prod.mk.injEq]
  constructor
  · rintro ⟨at_, inside, rfl, rfl⟩
    have high : at_ < factors.length := by omega
    exact ⟨inside.1, high, by simp [high]⟩
  · rintro ⟨low, high, rfl⟩
    exact ⟨stage, ⟨low, by omega⟩, rfl, by simp [high]⟩

/- Two lane rules that read and build the same stages. -/
theorem sameReads {step : ℕ → ℕ} :
    (∀ stage lanes, (stage, lanes) ∈ stageReads leaf.factors (leaf.factors.map step) →
      1 ≤ stage ∧ stage < leaf.factors.length ∧ lanes = lanesOf stage) ↔
    ∀ stage, 1 ≤ stage → stage < leaf.factors.length → step (leaf.factors.getD stage 1) = lanesOf stage := by
  constructor
  · intro same stage low high
    exact (same stage _ (memStageReads.mpr ⟨low, high, rfl⟩)).2.2
  · intro same stage lanes read
    obtain ⟨low, high, rfl⟩ := memStageReads.mp read
    exact ⟨low, high, same stage low high⟩

theorem fullLanesIff (leaf : LeafPlanNode) (dtype : String) : FullLanes leaf dtype ↔
    ∀ stage, 1 ≤ stage → stage < leaf.factors.length →
      leaf.length / leaf.factors.getD stage 1 = fixedStageLanes leaf dtype (leaf.factors.getD stage 1) := by
  refine forall_congr' fun stage => forall_congr' fun low => forall_congr' fun high => ?_
  have member : leaf.factors.getD stage 1 ∈ leaf.factors := by simp [high]
  cases cooperative : useCooperativeStageLanes leaf dtype with
  | true =>
      simp only [fixedStageLanes, cooperative, if_true]
      exact (cooperativeFull leaf member).symm.trans eq_comm
  | false => simp [fixedStageLanes, cooperative]

end Tables

section Decisions

variable {c : LeafCompile} {portable : Bool}

theorem hostPortable (decided : portableIx c = .ok portable) :
    portable = true ↔ c.backend = .ix ∧ c.ixHostPortable := by
  simp only [portableIx, LeafCompile.ixHostPortable, policiesOn] at *
  by_cases ix : c.backend = .ix
  · cases setting : c.environment "FLAGFFT_IX_PORTABLE_LEAF" with
    | some value =>
        simp only [ix, setting, if_true, Except.ok.injEq] at decided
        simp [ix, ← decided]
    | none =>
        simp only [ix, setting, if_true] at decided
        cases single : ixCtSinglePolicyEnabled c.environment c.request with
        | error message => simp [single, bind, Except.bind] at decided
        | ok on =>
            cases on <;> simp_all [bind, Except.bind, pure, Except.pure]
  · simp only [ix, if_false, Except.ok.injEq] at decided
    simp [ix, ← decided]

theorem stripOne : stripLower "1" = "1" := by decide

theorem stripEmpty : stripLower "" ≠ "1" := by decide

theorem kernelPortable {ixCtSingle ixCtBatch : Bool}
    (single : ixCtSinglePolicyEnabled c.environment c.configured = .ok ixCtSingle)
    (batch : ixCtBatchPolicyEnabled c.environment c.configured = .ok ixCtBatch) :
    portableLeafBackendActive c.backend c.leafEnvironment ixCtSingle ixCtBatch = true ↔
      c.backend = .maca ∨ (c.backend = .npu ∧ c.npuKernelPortable) ∨ (c.backend = .ix ∧ c.ixKernelPortable) := by
  have knob : ixPortableLeafKnob c.leafEnvironment ixCtSingle ixCtBatch = "1" ↔ c.ixKernelPortable := by
    simp only [ixPortableLeafKnob, LeafCompile.ixKernelPortable, policiesOn, single, batch]
    cases c.leafEnvironment "FLAGFFT_IX_PORTABLE_LEAF" with
    | some value => rfl
    | none => cases ixCtSingle <;> cases ixCtBatch <;> simp [stripOne, stripEmpty]
  simp [portableLeafBackendActive, LeafCompile.npuKernelPortable, knob, or_assoc]

end Decisions

section ThreadLocal

variable {c : LeafCompile} {leaf : LeafPlanNode} {portable : Bool}

theorem threadLocalShape (used : useThreadLocalMixedLeaf c leaf portable = true) :
    ∃ radix, leaf.factors = [radix, 32] ∧ radix ∈ threadLocalMixedRadices ∧ c.backend = .cuda := by
  rw [useThreadLocalMixedLeaf] at used
  split at used
  · rename_i registerRadix crossRadix factors
    simp only [Bool.and_eq_true, beq_iff_eq, List.contains_eq_mem, decide_eq_true_eq] at used
    obtain ⟨⟨⟨⟨⟨⟨⟨cuda, _⟩, _⟩, radix⟩, rfl⟩, _⟩, _⟩, _⟩ := used
    exact ⟨registerRadix, factors, radix, cuda⟩
  · simp at used

theorem crossStages {radix : ℕ} (factors : leaf.factors = [radix, 32]) (member : radix ∈ threadLocalMixedRadices) :
    leaf.length = radix * 32 ∧ 18 ≤ radix ∧ radix ≤ 32 ∧ cooperativeStageLanes leaf.length radix = 32 ∧
      cooperativeStageLanes leaf.length 32 = radix := by
  have length : leaf.length = radix * 32 := by simp [← leaf.product, factors]
  have range : 18 ≤ radix ∧ radix ≤ 32 := by
    simp only [threadLocalMixedRadices, List.mem_cons, List.not_mem_nil, or_false] at member
    omega
  have first : leaf.length / radix = 32 := by rw [length, Nat.mul_div_cancel_left _ (by omega)]
  have second : leaf.length / 32 = radix := by rw [length, Nat.mul_div_cancel _ (by decide)]
  refine ⟨length, range.1, range.2, ?_, ?_⟩
  · exact ((cooperativeFull leaf (by simp [factors])).mpr (by simp [first, maxLanes])).trans first
  · exact ((cooperativeFull leaf (by simp [factors])).mpr (by simp only [second, maxLanes]; omega)).trans second

/- On these leaves the host always spreads the stages. -/
theorem crossCooperative (dtype : String) {radix : ℕ} (factors : leaf.factors = [radix, 32])
    (member : radix ∈ threadLocalMixedRadices) : useCooperativeStageLanes leaf dtype = true := by
  obtain ⟨length, low, high, firstLanes, secondLanes⟩ := crossStages factors member
  have first : leaf.length / radix = 32 := by rw [length, Nat.mul_div_cancel_left _ (by omega)]
  have compatible (fits : fixedLanesAreCompatible leaf = true) : leaf.lanes ≤ 32 := by
    simp only [fixedLanesAreCompatible, factors, List.all_cons, List.all_nil, first, Bool.and_true, Bool.and_eq_true,
      beq_iff_eq] at fits
    exact Nat.le_of_dvd (by decide) (Nat.dvd_of_mod_eq_zero fits.1)
  have spread : (stageLaneRange leaf).1 * 4 ≥ (stageLaneRange leaf).2 := by
    simp only [stageLaneRange, factors, List.foldl_cons, List.foldl_nil, firstLanes, secondLanes, maxLanes]
    omega
  rw [useCooperativeStageLanes, if_neg]
  · simp [spread]
  · simp only [cooperativeStageMinLength, cooperativeStageMaxLength, cooperativeStageMaxBaseLanes, length, factors,
      List.length_cons, List.length_nil, not_or, not_and]
    exact ⟨by omega, by omega, by omega, fun wide fits => absurd (compatible fits) (by omega)⟩

theorem crossLanes (dtype : String) {radix : ℕ} (factors : leaf.factors = [radix, 32])
    (member : radix ∈ threadLocalMixedRadices) : fixedStageLanes leaf dtype 32 = radix := by
  simp [fixedStageLanes, crossCooperative dtype factors member, (crossStages factors member).2.2.2.2]

end ThreadLocal

/- Two readings of one generated leaf: the thread-local kernel, and all the others. -/
theorem generatedCases {c : LeafCompile} {leaf : LeafPlanNode} {kernel : GeneratedLeaf}
    (generated : generateLeaf c leaf = .ok kernel) :
    (∃ twiddle, kernel.params = leafKernelParamsForIo leaf c.mode twiddle) ∧ ∃ portable : Bool,
      (portable = true ↔ c.backend = .maca ∨ (c.backend = .npu ∧ c.npuKernelPortable) ∨
        (c.backend = .ix ∧ c.ixKernelPortable)) ∧
      ((∃ radix, leaf.factors = [radix, 32] ∧ radix ∈ threadLocalMixedRadices ∧ c.backend = .cuda ∧
          kernel.stageReads = [(1, radix)]) ∨
        (portable = true ∧ singleCodelet leaf c.request.inputDtype c.mode ∧ kernel.stageReads = []) ∨
        (portable = true ∧ ¬singleCodelet leaf c.request.inputDtype c.mode ∧
          kernel.stageReads = stageReads leaf.factors (leaf.factors.map (leaf.length / ·))) ∨
        (portable = false ∧
          kernel.stageReads = stageReads leaf.factors (leaf.factors.map (fixedStageLanes leaf c.request.inputDtype)))) := by
  simp only [generateLeaf] at generated
  cases single : ixCtSinglePolicyEnabled c.environment c.configured with
  | error message => simp [single, bind, Except.bind] at generated
  | ok ixCtSingle =>
  cases batch : ixCtBatchPolicyEnabled c.environment c.configured with
  | error message => simp [single, batch, bind, Except.bind] at generated
  | ok ixCtBatch =>
  have decision := kernelPortable single batch
  simp only [single, batch, bind, Except.bind] at generated
  generalize portableLeafBackendActive c.backend c.leafEnvironment ixCtSingle ixCtBatch = portable at *
  cases threadLocal : useThreadLocalMixedLeaf c leaf portable with
  | true =>
      simp only [threadLocal, if_true, pure, Except.pure, Except.ok.injEq] at generated
      obtain ⟨radix, factors, member, cuda⟩ := threadLocalShape threadLocal
      subst generated
      exact ⟨⟨_, rfl⟩, portable, decision, .inl ⟨radix, factors, member, cuda, by simp [factors]⟩⟩
  | false =>
      simp only [threadLocal, Bool.false_eq_true, if_false] at generated
      split at generated
      · simp [throw, throwThe, MonadExceptOf.throw] at generated
      · cases portable with
        | true =>
            simp only [if_true, pure, Except.pure, Except.ok.injEq] at generated
            subst generated
            refine ⟨⟨_, rfl⟩, true, decision, .inr ?_⟩
            by_cases small : singleCodelet leaf c.request.inputDtype c.mode
            · exact .inl ⟨rfl, small, by simp [emittedLeafFactors, small, stageReads]⟩
            · exact .inr (.inl ⟨rfl, small, by simp [emittedLeafFactors, small]⟩)
        | false =>
            simp only [Bool.false_eq_true, if_false, laneRulesAgree, pure, Except.pure, Except.ok.injEq] at generated
            subst generated
            exact ⟨⟨_, rfl⟩, false, decision, .inr (.inr (.inr ⟨rfl, by simp [emittedLeafFactors]⟩))⟩

variable {c : LeafCompile} {leaf : LeafPlanNode} {tables : List LeafTable} {kernel : GeneratedLeaf}

/- What SameLayout says, with the two decisions named. -/
theorem sameLayoutIff {uploaded generated : Bool} (host : uploaded = true ↔ c.backend = .ix ∧ c.ixHostPortable)
    (device : generated = true ↔
      c.backend = .maca ∨ (c.backend = .npu ∧ c.npuKernelPortable) ∨ (c.backend = .ix ∧ c.ixKernelPortable)) :
    SameLayout c leaf ↔ c.backend = .maca ∨ generated = uploaded ∨
      (generated = true ∧ singleCodelet leaf c.request.inputDtype c.mode) ∨ FullLanes leaf c.request.inputDtype := by
  have equal : generated = uploaded ↔ (generated = true ↔ uploaded = true) := Bool.eq_iff_iff
  rw [equal, host, device]
  cases backend : c.backend <;> simp only [SameLayout, backend, reduceCtorEq, true_and, false_and, or_false, false_or,
    true_or, iff_self, iff_false]
  tauto

/- The kernel reads the tables of its leaf, whatever the backend, the mode, the policies and the environment, exactly
when the two decisions do not matter to the leaf or fall together. -/
theorem tablesAgree (uploaded : buildRawLeafTables c leaf = .ok tables) (generated : generateLeaf c leaf = .ok kernel) :
    Agrees tables kernel ↔ SameLayout c leaf := by
  obtain ⟨⟨twiddle, params⟩, portable, device, reads⟩ := generatedCases generated
  cases decided : portableIx c with
  | error message => simp [buildRawLeafTables, decided, bind, Except.bind] at uploaded
  | ok portableHost =>
  have host := hostPortable decided
  simp only [buildRawLeafTables, decided, bind, Except.bind, pure, Except.pure, Except.ok.injEq] at uploaded
  rw [← uploaded, agreesIff params, sameLayoutIff host device]
  have maca (this : c.backend = .maca) : portable = true := device.mpr (.inl this)
  have full := fullLanesIff leaf c.request.inputDtype
  rcases reads with ⟨radix, factors, member, cuda, read⟩ | ⟨rfl, small, read⟩ | ⟨rfl, large, read⟩ | ⟨rfl, read⟩
  · -- the thread-local kernel, only where neither side is portable
    have plain : portableHost = false := by simpa [cuda] using host
    have same : portable = portableHost := by simpa [plain, cuda] using device
    simp only [same, true_or, or_true, iff_true]
    intro stage lanes here
    obtain ⟨rfl, rfl⟩ : stage = 1 ∧ lanes = radix := by simpa [read] using here
    exact ⟨le_rfl, by simp [factors], by simp [hostStageLanes, cuda, plain, factors, crossLanes _ factors member]⟩
  · simp [read, small]
  · rw [read, sameReads]
    by_cases whole : c.backend = .maca ∨ portableHost = true
    · have left : c.backend = .maca ∨ true = portableHost := whole.imp_right Eq.symm
      simp only [hostStageLanes, whole, if_true, implies_true, true_iff]
      tauto
    · simp only [hostStageLanes, whole, if_false, ← full]
      rw [not_or, Bool.not_eq_true] at whole
      simp [whole, large]
  · rw [read, sameReads]
    have other : c.backend ≠ .maca := fun this => Bool.noConfusion (maca this)
    cases portableHost with
    | false => simp [hostStageLanes, other]
    | true =>
        simp only [hostStageLanes, or_true, if_true, other, Bool.false_eq_true, false_and, false_or, full]
        exact forall_congr' fun stage => forall_congr' fun _ => forall_congr' fun _ => eq_comm

/- An axis of a 64 x 64 transform, with FLAGFFT_NPU_2D_LEAF_FACTORS=16x4. -/
def sixteenByFour : LeafPlanNode where
  length := 64
  factors := [16, 4]
  lanes := 4
  genericRadices := []
  product := rfl
  positive := by decide
  lanesPositive := by decide

def npuPlane : LeafCompile where
  backend := .npu
  environment := fun _ => none
  configured := ⟨"npu", "", 1, 2, 64, 64, 64, "complex64", "complex64", [1], false⟩
  request := ⟨"npu", "", 1, 2, 64, 64, 64, "complex64", "complex64", [1], false⟩
  mode := .contiguous
  n1 := 0
  n2 := 0

theorem npuReadsOtherLanes : ∃ tables kernel, buildRawLeafTables npuPlane sixteenByFour = .ok tables ∧
    generateLeaf npuPlane sixteenByFour = .ok kernel ∧ ¬Agrees tables kernel := by
  refine ⟨_, ⟨_, [(1, 16)]⟩, rfl, rfl, fun agrees => ?_⟩
  have table := agrees.lanes 1 16 .real (by simp)
  revert table
  decide

def eightByEight : LeafPlanNode := { sixteenByFour with factors := [8, 8], lanes := 8, product := rfl, lanesPositive := by decide }

theorem cudaLeafAgrees : Agrees [.stageTwiddles 1 8 .real, .stageTwiddles 1 8 .imag]
    ⟨[.inPtr, .outPtr, .stageTwiddle 1 .real, .stageTwiddle 1 .imag, .nbatch], [(1, 8)]⟩ :=
  (@tablesAgree { npuPlane with backend := .cuda } eightByEight _ _ rfl rfl).mpr trivial

end FlagFft.Codegen
