import FlagFft.Library.Table
import FlagFft.Plan.Json

/-! The database of tuned plans: what a tuning run writes, what a plan looks up, and the tree that is then planned.
A file that does not exist is an empty table. -/
namespace FlagFft.Plan
open Library.Json Library.Table

/- The variables that are read, and the names of the backend and of the cache directory. -/
structure Environment where
  backendName : String
  executionPolicy : Option String := none
  macaTailPolicy : Option String := none
  macaTailPlan : Option String := none
  tuneDisable : Option String := none
  tuneDb : Option String := none
  defaultCacheDir : String := ""

structure FftRequest where
  requestedN : ℤ
  batch : ℤ
  rawDim : ℤ
  originRank : ℤ
  realTransform : Bool
  realTransformKind : String
  norm : String
  inputDtype : String
  outputDtype : String
  deviceType : String
  deviceArch : String
  inputLayout : String
  direction : String
  deriving DecidableEq, Repr

structure TuneFingerprints where
  planner : String
  codegen : String
  runtime : String
  benchmark : String
  deriving DecidableEq, Repr

def tuneFingerprints (environment : Environment) : TuneFingerprints :=
  let backend := environment.backendName
  let defaultPolicy := if backend = "ix" then "balanced" else if backend = "hcu" then "native" else "legacy"
  let native := backend = "maca"
  { planner := if native then "planner-schema-5-maca-warp64-min2" else "planner-schema-3-exact-batch-candidates"
    codegen := if native then "codegen-schema-6-maca-register-exchange-min2"
      else "codegen-schema-5-hardware-profile-" ++ environment.executionPolicy.getD defaultPolicy
    runtime := if native then "runtime-schema-6-maca-native-dispatch" else "runtime-schema-5-rader-dc-reuse"
    benchmark := "benchmark-schema-2-api-dispatch" }

/- A measured winner is valid for the measured batch alone. -/
def batchBucket (batch : ℤ) : String := if batch ≤ 1 then "1" else "exact:" ++ toString batch

def envFlagEnabled (value : Option String) : Bool :=
  match value with
  | none => false
  | some raw => !(["", "0", "false", "off", "no"].contains raw.toLower)

def tunedDbPath (environment : Environment) : Option String :=
  if envFlagEnabled environment.tuneDisable = true then none
  else match environment.tuneDb with
    | none | some "" => some (environment.defaultCacheDir ++ "/tuned_plans.sqlite")
    | some path => some path

section MacaTail
variable (environment : Environment) (request : FftRequest)

def macaTailPolicyEnabled : Except Error Bool :=
  if request.deviceType ≠ "maca" ∨ request.rawDim ≠ 1 ∨ request.batch ≠ 1 ∨
      (request.originRank ≠ 0 ∧ request.originRank ≠ 1) then .ok false
  else match environment.macaTailPolicy with
    | none | some "" | some "1" => .ok true
    | some "0" => .ok false
    | some _ => .error (.thrown "FLAGFFT_MACA_TAIL_POLICY must be 0 or 1")

def macaTailAutomaticPlan : Except Error String := do
  let enabled ← macaTailPolicyEnabled environment request
  if enabled = false ∨ (environment.macaTailPlan.getD "" ≠ "") then return ""
  else if request.realTransform = true then
    if request.inputDtype = "complex128" ∧ request.requestedN = 997 ∧
        (request.realTransformKind = "d2z" ∨ request.realTransformKind = "z2d") then return "bs2048"
    else if request.inputDtype = "complex64" ∧ request.requestedN = 1009 ∧
        (request.realTransformKind = "r2c" ∨ request.realTransformKind = "c2r") then return "bs2048"
    else return ""
  else if request.inputDtype ≠ request.outputDtype then return ""
  else if request.inputDtype = "complex128" then
    if request.requestedN = 997 then return "bs2048"
    else if request.requestedN = 1048576 then return "ct1024x1024"
    else return ""
  else if request.inputDtype = "complex64" ∧ request.requestedN = 1009 then return "bs2048"
  else return ""

end MacaTail

def rawSupportedNode : PlanNode → Bool
  | .stockham .. | .leaf .. | .directDft .. => true
  | .fourStep _ _ _ rowPlan colPlan => rawSupportedNode rowPlan && rawSupportedNode colPlan
  | .bluestein _ _ fftPlan => rawSupportedNode fftPlan
  | .rader _ _ _ convPlan => rawSupportedNode convPlan
  | .twoDim _ _ _ rowPlan colPlan => rawSupportedNode rowPlan && rawSupportedNode colPlan
  | .threeDim _ _ _ _ n2Plan n1Plan n0Plan =>
    rawSupportedNode n2Plan && rawSupportedNode n1Plan && rawSupportedNode n0Plan

theorem rawSupported (node : PlanNode) : rawSupportedNode node = true := by
  induction node with
  | leaf | directDft | stockham => rfl
  | fourStep _ _ _ _ _ row col | twoDim _ _ _ _ _ row col => simp [rawSupportedNode, row, col]
  | bluestein _ _ _ fft => exact fft
  | rader _ _ _ _ conv => exact conv
  | threeDim _ _ _ _ _ _ _ n2Tree n1Tree n0Tree => simp [rawSupportedNode, n2Tree, n1Tree, n0Tree]

/- The text of a JSON value, as the JSON library writes it and reads it back. -/
structure Codec where
  Text : Type
  dump : Value → Text
  parse : Text → Except Error Value
  readBack : ∀ value, parse (dump value) = .ok value

/- Around the tree stand the request and the key, which no one reads back. -/
def wrapPlanJson (root : PlanNode) (source : String) : Value :=
  .object [("schema_version", .number kPlanSchemaVersion), ("source", .text source), ("tags", .object []),
    ("root", planNodeToJson root)]

/- A row of tuned_measurements, without its timings. -/
structure Row (Text : Type) where
  schemaVersion : ℤ
  status : String
  rank : ℤ
  deviceArch : String
  fftLength : ℤ
  batchBucket : String
  dtype : String
  direction : String
  norm : String
  inputLayout : String
  plannerFingerprint : String
  codegenFingerprint : String
  runtimeFingerprint : String
  benchmarkFingerprint : String
  planJson : Text
  planKey : String
  measuredAt : ℤ

section Statements
variable {Text : Type} (request : FftRequest) (fingerprints : TuneFingerprints) (row : Row Text)

/- DELETE FROM tuned_measurements WHERE .. -/
def removed : Bool :=
  row.schemaVersion == kPlanSchemaVersion && row.rank == 0 && row.deviceArch == request.deviceArch &&
    row.fftLength == request.requestedN && row.batchBucket == batchBucket request.batch &&
    row.dtype == request.inputDtype && row.direction == request.direction && row.norm == request.norm &&
    row.inputLayout == request.inputLayout && row.plannerFingerprint == fingerprints.planner &&
    row.codegenFingerprint == fingerprints.codegen && row.runtimeFingerprint == fingerprints.runtime

/- SELECT plan_json FROM tuned_measurements WHERE .. -/
def wanted : Bool :=
  row.schemaVersion == kPlanSchemaVersion && row.status == "valid" && row.rank == 0 &&
    row.deviceArch == request.deviceArch && row.fftLength == request.requestedN &&
    row.batchBucket == batchBucket request.batch && row.dtype == request.inputDtype &&
    row.direction == request.direction && row.norm == request.norm && row.inputLayout == request.inputLayout &&
    row.plannerFingerprint == fingerprints.planner && row.codegenFingerprint == fingerprints.codegen &&
    row.runtimeFingerprint == fingerprints.runtime

end Statements

/- What a tuning run hands to persist_results: its candidates are trees of the tuned length. -/
structure TuneCall where
  environment : Environment
  forward : FftRequest
  inverse : FftRequest
  winner : PlanNode
  measuredAt : ℤ
  built : Built winner
  forwardLength : winner.length = forward.requestedN
  inverseLength : winner.length = inverse.requestedN

section Persist
variable (codec : Codec)

def winnerRow (call : TuneCall) (request : FftRequest) : Row codec.Text :=
  let fingerprints := tuneFingerprints call.environment
  { schemaVersion := kPlanSchemaVersion, status := "valid", rank := 0, deviceArch := request.deviceArch
    fftLength := request.requestedN, batchBucket := batchBucket request.batch, dtype := request.inputDtype
    direction := request.direction, norm := request.norm, inputLayout := request.inputLayout
    plannerFingerprint := fingerprints.planner, codegenFingerprint := fingerprints.codegen
    runtimeFingerprint := fingerprints.runtime, benchmarkFingerprint := fingerprints.benchmark
    planJson := codec.dump (wrapPlanJson call.winner "decomposition-tune")
    planKey := (PlanKey.fromNode call.winner).repr, measuredAt := call.measuredAt }

def writeWinner (call : TuneCall) (request : FftRequest) (table : Multiset (Row codec.Text)) : Multiset (Row codec.Text) :=
  replaceWhere (fun row => removed request (tuneFingerprints call.environment) row = true) (winnerRow codec call request) table

def persistResults (table : Multiset (Row codec.Text)) (call : TuneCall) : Multiset (Row codec.Text) :=
  writeWinner codec call call.inverse (writeWinner codec call call.forward table)

def persistAll (calls : List TuneCall) : Multiset (Row codec.Text) := calls.foldl (persistResults codec) 0

end Persist

/- PlanBuilder::build, and what the reader of trees asks of the builder. -/
structure PlanBuilder extends Builder where
  build : ℤ → FftRequest → Except Error PlanNode

section Lookup
variable (codec : Codec) (environment : Environment) (request : FftRequest)

/- The row a lookup may find in the files. -/
inductive Looked (files : String → Multiset (Row codec.Text)) : Option (Row codec.Text) → Prop where
  | disabled : tunedDbPath environment = none → Looked files none
  | at (path : String) {selected : Option (Row codec.Text)} : tunedDbPath environment = some path →
      Selects (fun row => wanted request (tuneFingerprints environment) row = true) Row.measuredAt (files path) selected →
      Looked files selected

def lookupTunedPlanJson (selected : Option (Row codec.Text)) : Option Value :=
  match selected with
  | none => none
  | some row => match codec.parse row.planJson with
    | .ok json => some json
    | .error _ => none

def tunedRoot (builder : Builder) (tuned : Value) : Except Error PlanNode := do
  let root ← tuned.child "root"
  planNodeFromJson builder root.1

def lookupOrBuildRoot (builder : PlanBuilder) (selected : Option (Row codec.Text)) : Except Error PlanNode :=
  let build := builder.build request.requestedN request
  if request.deviceType = "npu" then build
  else macaTailAutomaticPlan environment request >>= fun plan =>
    if plan ≠ "" then build
    else match lookupTunedPlanJson codec selected with
      | none => build
      | some tuned =>
        match tunedRoot builder.toBuilder tuned with
        | .ok root => if rawSupportedNode root = true then .ok root else build
        | .error _ => build

end Lookup

/- The columns that tell measurements apart. -/
structure MeasurementKey where
  deviceArch : String
  fftLength : ℤ
  batchBucket : String
  dtype : String
  direction : String
  norm : String
  inputLayout : String
  planner : String
  codegen : String
  runtime : String
  deriving DecidableEq

def Row.key {Text : Type} (row : Row Text) : MeasurementKey :=
  ⟨row.deviceArch, row.fftLength, row.batchBucket, row.dtype, row.direction, row.norm, row.inputLayout,
    row.plannerFingerprint, row.codegenFingerprint, row.runtimeFingerprint⟩

def keyOf (environment : Environment) (request : FftRequest) : MeasurementKey :=
  let fingerprints := tuneFingerprints environment
  ⟨request.deviceArch, request.requestedN, batchBucket request.batch, request.inputDtype, request.direction, request.norm,
    request.inputLayout, fingerprints.planner, fingerprints.codegen, fingerprints.runtime⟩

/- The last run that was tuned for a key, in one direction or the other. -/
def TuneCall.serves (call : TuneCall) (key : MeasurementKey) : Bool :=
  keyOf call.environment call.forward = key ∨ keyOf call.environment call.inverse = key

def lastCall (key : MeasurementKey) (calls : List TuneCall) : Option TuneCall :=
  (calls.filter fun call => call.serves key).getLast?

section Rows
variable {codec : Codec} {environment : Environment} {request : FftRequest}

/- Every row that is written is valid, of rank zero and of this schema. -/
structure Row.Current {Text : Type} (row : Row Text) : Prop where
  schema : row.schemaVersion = kPlanSchemaVersion
  status : row.status = "valid"
  rank : row.rank = 0

theorem keyEq {Text : Type} {row : Row Text} : row.key = keyOf environment request ↔
    row.deviceArch = request.deviceArch ∧ row.fftLength = request.requestedN ∧
    row.batchBucket = batchBucket request.batch ∧ row.dtype = request.inputDtype ∧ row.direction = request.direction ∧
    row.norm = request.norm ∧ row.inputLayout = request.inputLayout ∧
    row.plannerFingerprint = (tuneFingerprints environment).planner ∧
    row.codegenFingerprint = (tuneFingerprints environment).codegen ∧
    row.runtimeFingerprint = (tuneFingerprints environment).runtime := by
  simp only [Row.key, keyOf, MeasurementKey.mk.injEq]

theorem removedByKey {Text : Type} {row : Row Text} (current : row.Current) :
    removed request (tuneFingerprints environment) row = true ↔ row.key = keyOf environment request := by
  simp only [removed, keyEq, Bool.and_eq_true, beq_iff_eq, current.schema, current.rank, true_and, and_assoc]

theorem wantedByKey {Text : Type} {row : Row Text} (current : row.Current) :
    wanted request (tuneFingerprints environment) row = true ↔ row.key = keyOf environment request := by
  simp only [wanted, keyEq, Bool.and_eq_true, beq_iff_eq, current.schema, current.status, current.rank, true_and, and_assoc]

theorem winnerKey {call : TuneCall} : (winnerRow codec call request).key = keyOf call.environment request := rfl

def rowsOf (codec : Codec) (calls : List TuneCall) : List (Row codec.Text) :=
  calls.flatMap fun call => [winnerRow codec call call.forward, winnerRow codec call call.inverse]

theorem rowsSnoc (calls : List TuneCall) (call : TuneCall) : rowsOf codec (calls ++ [call]) =
    rowsOf codec calls ++ [winnerRow codec call call.forward] ++ [winnerRow codec call call.inverse] := by
  simp [rowsOf]

theorem winnerCurrent {call : TuneCall} : (winnerRow codec call request).Current := ⟨rfl, rfl, rfl⟩

theorem replaceCurrent {Text : Type} {condition : Row Text → Prop} [DecidablePred condition] {row : Row Text}
    {table : Multiset (Row Text)} (new : row.Current) (current : ∀ other ∈ table, other.Current) :
    ∀ other ∈ replaceWhere condition row table, other.Current := by
  intro other inside
  rcases Multiset.mem_cons.mp inside with rfl | older
  · exact new
  · exact current other (Multiset.mem_filter.mp older).1

theorem writeByKey {call : TuneCall} {table : Multiset (Row codec.Text)} (current : ∀ row ∈ table, row.Current) :
    writeWinner codec call request table =
      replaceWhere (fun row => row.key = (winnerRow codec call request).key) (winnerRow codec call request) table := by
  unfold writeWinner replaceWhere
  congr 1
  exact Multiset.filter_congr fun row inside => not_congr (removedByKey (current row inside))

/- The runs write the rows one after another, each in place of those of its key. -/
theorem persistRows (calls : List TuneCall) : (∀ row ∈ persistAll codec calls, row.Current) ∧
    persistAll codec calls = replaceAll Row.key (rowsOf codec calls) := by
  induction calls using List.reverseRecOn with
  | nil => exact ⟨fun row inside => absurd inside (Multiset.notMem_zero row), rfl⟩
  | append_singleton calls call ih =>
    obtain ⟨current, same⟩ := ih
    have step : persistAll codec (calls ++ [call]) = persistResults codec (persistAll codec calls) call := by
      rw [persistAll, List.foldl_append]
      rfl
    have forward : ∀ row ∈ writeWinner codec call call.forward (persistAll codec calls), row.Current :=
      replaceCurrent winnerCurrent current
    constructor
    · rw [step]
      exact replaceCurrent winnerCurrent forward
    · rw [step, persistResults, writeByKey forward, writeByKey current, same, rowsSnoc, replaceAllSnoc, replaceAllSnoc]

theorem lastCallSnoc {key : MeasurementKey} (calls : List TuneCall) (call : TuneCall) :
    lastCall key (calls ++ [call]) = if call.serves key = true then some call else lastCall key calls := by
  unfold lastCall
  rw [List.filter_append]
  split
  case isTrue serves => simp [serves]
  case isFalse other => simp [other]

/- The row of a key is one of the two rows of the last run that served it. -/
theorem lastRow {key : MeasurementKey} (calls : List TuneCall) :
    (lastCall key calls = none ∧ lastOf Row.key key (rowsOf codec calls) = none) ∨
      ∃ call request, lastCall key calls = some call ∧
        lastOf Row.key key (rowsOf codec calls) = some (winnerRow codec call request) := by
  induction calls using List.reverseRecOn with
  | nil => exact Or.inl ⟨rfl, rfl⟩
  | append_singleton calls call ih =>
    rw [rowsSnoc, lastSnoc, lastSnoc, lastCallSnoc, winnerKey, winnerKey]
    by_cases inverse : keyOf call.environment call.inverse = key
    · have serves : call.serves key = true := by simp [TuneCall.serves, inverse]
      rw [if_pos inverse, if_pos serves]
      exact Or.inr ⟨call, call.inverse, rfl, rfl⟩
    · by_cases forward : keyOf call.environment call.forward = key
      · have serves : call.serves key = true := by simp [TuneCall.serves, forward]
        rw [if_neg inverse, if_pos forward, if_pos serves]
        exact Or.inr ⟨call, call.forward, rfl, rfl⟩
      · have other : ¬ call.serves key = true := by simp [TuneCall.serves, inverse, forward]
        rw [if_neg inverse, if_neg forward, if_neg other]
        exact ih

theorem lastServes {key : MeasurementKey} {calls : List TuneCall} {call : TuneCall} (last : lastCall key calls = some call) :
    call.serves key = true :=
  (List.mem_filter.mp (List.mem_of_getLast? last)).2

theorem servedLength {call : TuneCall} (serves : call.serves (keyOf environment request) = true) :
    call.winner.length = request.requestedN := by
  rcases of_decide_eq_true serves with same | same
  · exact call.forwardLength.trans (congrArg MeasurementKey.fftLength same)
  · exact call.inverseLength.trans (congrArg MeasurementKey.fftLength same)

end Rows

section Replay
variable {codec : Codec} {environment : Environment} {request : FftRequest} {builder : PlanBuilder}

/- Outside the bypasses the tree of a row that is found is planned. -/
theorem plannedFromRow {call : TuneCall} {tuned : FftRequest} (notNpu : request.deviceType ≠ "npu")
    (noTail : macaTailAutomaticPlan environment request = .ok "") :
    lookupOrBuildRoot codec environment request builder (some (winnerRow codec call tuned)) = .ok call.winner := by
  have text : lookupTunedPlanJson codec (some (winnerRow codec call tuned)) =
      some (wrapPlanJson call.winner "decomposition-tune") := by
    simp only [lookupTunedPlanJson, winnerRow, codec.readBack]
  have tree : tunedRoot builder.toBuilder (wrapPlanJson call.winner "decomposition-tune") = .ok call.winner :=
    builtReadBack call.built
  simp only [lookupOrBuildRoot, if_neg notNpu, noTail, text, tree, rawSupported, bind, Except.bind, ne_eq,
    not_true_eq_false, if_false, if_true]

theorem plannedFresh (notNpu : request.deviceType ≠ "npu") (noTail : macaTailAutomaticPlan environment request = .ok "") :
    lookupOrBuildRoot codec environment request builder none = builder.build request.requestedN request := by
  simp only [lookupOrBuildRoot, if_neg notNpu, noTail, lookupTunedPlanJson, bind, Except.bind, ne_eq, not_true_eq_false,
    if_false]

/- The tree of the last run for the key of a request, or a new one where there was no such run. -/
def replayed (environment : Environment) (request : FftRequest) (builder : PlanBuilder) (calls : List TuneCall) :
    Except Error PlanNode :=
  match lastCall (keyOf environment request) calls with
  | some call => .ok call.winner
  | none => builder.build request.requestedN request

theorem tunedPlanReplays (files : String → Multiset (Row codec.Text)) {path : String} {calls : List TuneCall}
    (configured : tunedDbPath environment = some path) (persisted : files path = persistAll codec calls)
    (notNpu : request.deviceType ≠ "npu") (noTail : macaTailAutomaticPlan environment request = .ok "") :
    (∃ selected, Looked codec environment request files selected) ∧
      (∀ selected, Looked codec environment request files selected →
        lookupOrBuildRoot codec environment request builder selected = replayed environment request builder calls) ∧
      ∀ call, lastCall (keyOf environment request) calls = some call → call.winner.length = request.requestedN := by
  obtain ⟨current, rows⟩ := @persistRows codec calls
  have byKey : ∀ row ∈ replaceAll Row.key (rowsOf codec calls),
      wanted request (tuneFingerprints environment) row = true ↔ row.key = keyOf environment request := by
    intro row inside
    rw [← rows] at inside
    exact wantedByKey (current row inside)
  have selects := @selectsLast _ _ _ _ _ _ _ Row.measuredAt _ byKey
  refine ⟨⟨lastOf Row.key (keyOf environment request) (rowsOf codec calls), .at path configured ?_⟩, ?_, fun call last => servedLength (lastServes last)⟩
  · rw [persisted, rows]
    exact (selects _).mpr rfl
  · rintro selected (disabled | ⟨path', configured', chosen⟩)
    · rw [configured] at disabled
      cases disabled
    · obtain rfl : path = path' := Option.some.inj (configured.symm.trans configured')
      rw [persisted, rows] at chosen
      rw [(selects _).mp chosen, replayed]
      rcases @lastRow codec (keyOf environment request) calls with ⟨noCall, noRow⟩ | ⟨call, tuned, last, row⟩
      · rw [noCall, noRow]
        exact plannedFresh notNpu noTail
      · rw [last, row]
        exact plannedFromRow notNpu noTail

def cudaEnvironment : Environment := { backendName := "cuda", defaultCacheDir := "/root/.cache/flagfft" }

def cudaRequest (direction : String) : FftRequest :=
  { requestedN := 65536, batch := 8, rawDim := 1, originRank := 1, realTransform := false, realTransformKind := ""
    norm := "backward", inputDtype := "complex64", outputDtype := "complex64", deviceType := "cuda", deviceArch := "sm_80"
    inputLayout := "contiguous", direction := direction }

def cudaWinner (n1 n2 : ℤ) : PlanNode := .fourStep 65536 n1 n2 (.stockham n1 [16, 16]) (.stockham n2 [16, 16])

def cudaCall : TuneCall :=
  { environment := cudaEnvironment, forward := cudaRequest "forward", inverse := cudaRequest "inverse"
    winner := cudaWinner 256 256, measuredAt := 1, built := .fourStep _ _ _ (.stockham _ _) (.stockham _ _)
    forwardLength := rfl, inverseLength := rfl }

def plainCodec : Codec := ⟨Value, id, .ok, fun _ => rfl⟩

theorem tunedPlanReplaysCuda :
    (∃ selected, Looked plainCodec cudaEnvironment (cudaRequest "inverse") (fun _ => persistAll plainCodec [cudaCall]) selected) ∧
      (∀ selected,
        Looked plainCodec cudaEnvironment (cudaRequest "inverse") (fun _ => persistAll plainCodec [cudaCall]) selected →
          lookupOrBuildRoot plainCodec cudaEnvironment (cudaRequest "inverse")
              ⟨⟨fun _ _ => 1, fun _ => 1⟩, fun n _ => .ok (.directDft n)⟩ selected =
            replayed cudaEnvironment (cudaRequest "inverse") ⟨⟨fun _ _ => 1, fun _ => 1⟩, fun n _ => .ok (.directDft n)⟩
              [cudaCall]) ∧
      ∀ call, lastCall (keyOf cudaEnvironment (cudaRequest "inverse")) [cudaCall] = some call →
        call.winner.length = (cudaRequest "inverse").requestedN :=
  tunedPlanReplays _ rfl rfl (by decide) rfl

end Replay

end FlagFft.Plan
