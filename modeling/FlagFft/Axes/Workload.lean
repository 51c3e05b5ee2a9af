import FlagFft.Axes.RealCube

/-! Where an axis is planned, compiled and executed for the same number of transforms. -/
namespace FlagFft.Axes
open Api (TransformType)
open Plan (FftRequest PlanNode)
open Exec

section Calls

/- Pairs of what two partial functions make of the same list. -/
theorem memZipFilterMap {α β γ : Type} {f : α → Option β} {g : α → Option γ} (together : ∀ x, (f x).isSome = (g x).isSome)
    {l : List α} {b : β} {c : γ} (member : (b, c) ∈ (l.filterMap f).zip (l.filterMap g)) :
    ∃ x ∈ l, f x = some b ∧ g x = some c := by
  induction l with
  | nil => simp at member
  | cons x rest ih =>
      have same := together x
      cases first : f x <;> cases second : g x <;> simp [first, second] at same
      · simp only [List.filterMap_cons, first, second] at member
        obtain ⟨y, inside, found⟩ := ih member
        exact ⟨y, List.mem_cons_of_mem x inside, found⟩
      · simp only [List.filterMap_cons, first, second, List.zip_cons_cons, List.mem_cons, Prod.mk.injEq] at member
        rcases member with ⟨rfl, rfl⟩ | later
        · exact ⟨x, List.mem_cons_self, first, second⟩
        · obtain ⟨y, inside, found⟩ := ih later
          exact ⟨y, List.mem_cons_of_mem x inside, found⟩

variable {parts : Parts} {n0 n1 n2 width batch : ℕ} {only : Axis} {requests : List (Axis × FftRequest)}

/- The number of transforms of the axes of a cube. -/
def cubeRows (n0 n1 width batch : ℕ) : Axis → ℕ
  | .n2 => batch * n0 * n1
  | .n1 => batch * n0 * width
  | .n0 => batch * n1 * width
  | _ => 0

theorem cubeCalls {schedule : CubeSchedule} {axis : Axis} {called : ℕ}
    (member : (axis, called) ∈ (Compiled.mk (cubeNode parts n0 n1 n2 width schedule) only requests).calls parts batch) :
    called = cubeRows n0 n1 width batch axis := by
  have member' : (axis, called) ∈ (schedule.steps.filterMap CubeStep.axis).zip
      (schedule.steps.filterMap (calledBatch ∘ (cube parts n0 n1 n2 width).step { parts.context with batch := batch } schedule
        (parts.fft .n2) (parts.fft .n1) (parts.fft .n0))) := by
    simpa only [Compiled.calls, callAxes, cubeNode, Node.steps, Cube.steps, List.filterMap_map] using member
  obtain ⟨step, _, same, batch_⟩ := memZipFilterMap (fun step => by cases step <;> rfl) member'
  cases step <;> cases same <;> cases batch_ <;> rfl

end Calls

section Planned

/- The requests and the executions of an axis are for so many transforms. -/
def Rows (axis : Axis) (rows : ℕ) (requests : List (Axis × FftRequest)) (calls : List (Axis × ℕ)) : Prop :=
  (∀ other, (axis, other) ∈ requests → other.batch = rows) ∧ ∀ batch, (axis, batch) ∈ calls → batch = rows

def PlaneRows (rowRows colRows : ℕ) (requests : List (Axis × FftRequest)) (calls : List (Axis × ℕ)) : Prop :=
  Rows .row rowRows requests calls ∧ Rows .col colRows requests calls

def CubeRows (n0 n1 width batch : ℕ) (requests : List (Axis × FftRequest)) (calls : List (Axis × ℕ)) : Prop :=
  ∀ axis ∈ [Axis.n2, .n1, .n0], Rows axis (cubeRows n0 n1 width batch axis) requests calls

variable (device : Device)

theorem memBothDirections {axis given : Axis} {direction : String} {request : String → FftRequest} {found : FftRequest} :
    (axis, found) ∈ bothDirections given direction request ↔
      axis = given ∧ (found = request direction ∨ found = request (if direction = "forward" then "inverse" else "forward")) := by
  simp only [bothDirections, List.mem_cons, Prod.mk.injEq, List.not_mem_nil, or_false]
  tauto

/- Both directions are planned for one number of transforms. -/
theorem bothSame {given : Axis} {direction : String} {request : String → FftRequest} {rows : ℕ}
    (same : ∀ direction, (request direction).batch = rows) {compiled : Compiled} {calls : List (Axis × ℕ)} :
    SameWorkload (bothDirections given direction request) compiled calls ↔ Rows given rows compiled.requests calls := by
  constructor
  · intro workload
    have here := workload given (request direction) (memBothDirections.mpr ⟨rfl, .inl rfl⟩)
    rw [same direction] at here
    exact ⟨here.1, fun batch called => Nat.cast_injective (here.2 batch called)⟩
  · rintro ⟨requests, executed⟩ axis found member
    obtain ⟨rfl, known⟩ := memBothDirections.mp member
    have batch : found.batch = rows := by rcases known with rfl | rfl <;> exact same _
    rw [batch]
    exact ⟨requests, fun called inside => congrArg Nat.cast (executed called inside)⟩

theorem sameAppend {first second : List (Axis × FftRequest)} {compiled : Compiled} {calls : List (Axis × ℕ)} :
    SameWorkload (first ++ second) compiled calls ↔ SameWorkload first compiled calls ∧ SameWorkload second compiled calls := by
  simp only [SameWorkload, List.mem_append, or_imp, forall_and]
  exact and_and_and_comm

/- What is planned for a plane are its rows and the columns of half a row. -/
theorem planeSame (desc : PlaneDesc) (compiled : Compiled) (calls : List (Axis × ℕ)) :
    SameWorkload (desc.axisRequests device) compiled calls ↔
      PlaneRows (desc.batch * desc.n0) (desc.batch * (desc.n1 / 2 + 1)) compiled.requests calls := by
  unfold PlaneDesc.axisRequests
  rw [sameAppend, bothSame, bothSame]
  · exact Iff.rfl
  · intro direction
    dsimp only
    split_ifs <;> rfl
  · intro direction
    dsimp only
    split_ifs <;> rfl

/- The elements along the last axis that the other two see. -/
def CubeDesc.width (desc : CubeDesc) : ℕ :=
  if desc.type.realForward || desc.type.realInverse then desc.n2 / 2 + 1 else desc.n2

theorem cubeSame (desc : CubeDesc) (compiled : Compiled) (calls : List (Axis × ℕ)) :
    SameWorkload (desc.axisRequests device) compiled calls ↔
      CubeRows desc.n0 desc.n1 desc.width desc.batch compiled.requests calls := by
  unfold CubeDesc.axisRequests
  rw [sameAppend, sameAppend, bothSame fun _ => rfl, bothSame fun _ => rfl, bothSame fun _ => rfl]
  simp only [CubeRows, List.forall_mem_cons, List.not_mem_nil, false_imp_iff, implies_true, and_true, cubeRows, CubeDesc.width,
    and_assoc]

end Planned

section Plane
variable (getenv : String → Option String) (rowPlan colPlan : PlanNode) (n0 n1 : ℕ) (request : FftRequest)

/- The column routes that compile the column with the request of the plane. -/
def stridedColumn : Bool :=
  rcEligible n0 = true ∧ ((isLeaf colPlan = true ∧ npuLeaf64Transpose getenv n0 n1 request = false) ∨
    (isDirect colPlan = true ∧ request.deviceType ≠ "npu") ∨ isLeafPair colPlan = true)

/- One axis has length one, or one kernel does both, or half a row of two is a whole one and the column has its own request. -/
def ComplexPlaneAgrees : Prop :=
  n0 = 1 ∨ n1 = 1 ∨ npuFused2d getenv n0 n1 request = true ∨
    (n1 = 2 ∧ (npuTransposeStore getenv rowPlan colPlan n0 n1 request = true ∨ stridedColumn getenv colPlan n0 n1 request = false))

/- The column has its own request. -/
def RealPlaneAgrees (kind : String) : Prop :=
  n0 = 1 ∨ (useNpuAivFft64Real getenv rowPlan colPlan n0 n1 request kind = false ∧
    (n1 = 1 ∨ rcColumn colPlan n0 request = false))

variable {getenv rowPlan colPlan n0 n1 request} {parts : Parts} {batch : ℕ}

section Routes
variable {rowRows colRows cols : ℕ} {calls : List (Axis × ℕ)}

/- Every row and every column is executed so many times. -/
def Executed (rowRows cols : ℕ) (calls : List (Axis × ℕ)) : Prop :=
  ∀ axis called, (axis, called) ∈ calls ↔ (axis = .row ∧ called = rowRows) ∨ (axis = .col ∧ called = cols)

theorem ownRoute (executed : Executed rowRows cols calls) :
    PlaneRows rowRows colRows (ownRequests n0 n1 request rowRows cols) calls ↔ cols = colRows := by
  have rows : ∀ batch, (.row, batch) ∈ calls ↔ batch = rowRows := fun batch => by simp [executed .row batch]
  have columns : ∀ batch, (.col, batch) ∈ calls ↔ batch = cols := fun batch => by simp [executed .col batch]
  simp [PlaneRows, Rows, rows, columns, ownRequests, axisRequest]

theorem sharedRoute (executed : Executed rowRows cols calls) :
    PlaneRows rowRows colRows (sharedColumn n1 request rowRows) calls ↔ request.batch = colRows ∧ cols = colRows := by
  have rows : ∀ batch, (.row, batch) ∈ calls ↔ batch = rowRows := fun batch => by simp [executed .row batch]
  have columns : ∀ batch, (.col, batch) ∈ calls ↔ batch = cols := fun batch => by simp [executed .col batch]
  simp [PlaneRows, Rows, rows, columns, sharedColumn, axisRequest]

/- Native transforms made without a request. -/
theorem nativeRoute (executed : Executed rowRows cols calls) : PlaneRows rowRows colRows [] calls ↔ cols = colRows := by
  have rows : ∀ batch, (.row, batch) ∈ calls ↔ batch = rowRows := fun batch => by simp [executed .row batch]
  have columns : ∀ batch, (.col, batch) ∈ calls ↔ batch = cols := fun batch => by simp [executed .col batch]
  simp [PlaneRows, Rows, rows, columns]

theorem rowsFirst (rowRows cols : ℕ) : Executed rowRows cols [(.row, rowRows), (.col, cols)] := by
  intro axis called
  simp

theorem columnsFirst (rowRows cols : ℕ) : Executed rowRows cols [(.col, cols), (.row, rowRows)] := by
  intro axis called
  simp [or_comm]

end Routes

/- A plane of side 64 is none of the exceptions. -/
theorem wideDisagrees (wide : n1 = 64) (unit : ¬n0 = 1) (fused : ¬npuFused2d getenv n0 n1 request = true) :
    ¬ComplexPlaneAgrees getenv rowPlan colPlan n0 n1 request := by
  rintro (one | one | one | two)
  · exact unit one
  · omega
  · exact fused one
  · omega

theorem complexPlane (positive : 0 < n0 ∧ 0 < n1 ∧ 0 < batch) (whole : request.batch = batch) :
    PlaneRows (batch * n0) (batch * (n1 / 2 + 1)) (compileRaw2dNode getenv parts rowPlan colPlan n0 n1 request batch).requests
      ((compileRaw2dNode getenv parts rowPlan colPlan n0 n1 request batch).calls parts batch) ↔
      ComplexPlaneAgrees getenv rowPlan colPlan n0 n1 request := by
  obtain ⟨rowsPositive, columnsPositive, batched⟩ := positive
  have own : batch * n1 = batch * (n1 / 2 + 1) ↔ n1 = 1 ∨ n1 = 2 := by
    rw [Nat.mul_right_inj batched.ne']
    omega
  have shared : request.batch = (batch * (n1 / 2 + 1) : ℕ) ↔ n1 = 1 := by
    rw [whole, Nat.cast_inj, eq_comm, Nat.mul_eq_left batched.ne']
    omega
  have executed := rowsFirst (batch * n0) (batch * n1)
  unfold compileRaw2dNode
  dsimp only
  split_ifs with unit fused unit' aiv cube matmul transposes store leaf direct pair
  · simp [PlaneRows, Rows, Compiled.calls, callAxes, Node.steps, calledBatch, axisRequest, ComplexPlaneAgrees, unit]
  · change PlaneRows _ _ [] [] ↔ _
    simp [PlaneRows, Rows, ComplexPlaneAgrees, fused]
  · simp [PlaneRows, Rows, Compiled.calls, callAxes, Node.steps, calledBatch, axisRequest, ComplexPlaneAgrees, unit']
  · have wide : n1 = 64 := by
      simp only [useNpuAivFft64, decide_eq_true_eq] at aiv
      exact aiv.2.2.2.2.1
    exact (nativeRoute executed).trans (iff_of_false (by omega) (wideDisagrees wide unit fused))
  iterate 3
    have wide : n1 = 64 := by
      simp only [cubeDft, decide_eq_true_eq] at cube
      exact cube.2.1
    exact (ownRoute executed).trans (iff_of_false (by omega) (wideDisagrees wide unit fused))
  · refine (ownRoute executed).trans ?_
    simp [own, ComplexPlaneAgrees, unit, unit', fused, store]
  · refine (sharedRoute executed).trans (iff_of_false (fun same => unit' (shared.mp same.1)) ?_)
    have strided : stridedColumn getenv colPlan n0 n1 request = true :=
      decide_eq_true ⟨leaf.1, .inl ⟨leaf.2.1, leaf.2.2⟩⟩
    simp [ComplexPlaneAgrees, unit, unit', fused, store, strided]
  · refine (sharedRoute executed).trans (iff_of_false (fun same => unit' (shared.mp same.1)) ?_)
    have strided : stridedColumn getenv colPlan n0 n1 request = true :=
      decide_eq_true ⟨direct.1, .inr (.inl ⟨direct.2.1, direct.2.2⟩)⟩
    simp [ComplexPlaneAgrees, unit, unit', fused, store, strided]
  · refine (sharedRoute executed).trans (iff_of_false (fun same => unit' (shared.mp same.1)) ?_)
    have strided : stridedColumn getenv colPlan n0 n1 request = true := decide_eq_true ⟨pair.1, .inr (.inr pair.2)⟩
    simp [ComplexPlaneAgrees, unit, unit', fused, store, strided]
  · refine (ownRoute executed).trans ?_
    have free : stridedColumn getenv colPlan n0 n1 request = false := by
      refine decide_eq_false ?_
      rintro ⟨eligible, isLeaf_ | isDirect_ | isPair⟩
      · exact leaf ⟨eligible, isLeaf_⟩
      · exact direct ⟨eligible, isDirect_⟩
      · exact pair ⟨eligible, isPair⟩
    simp [own, ComplexPlaneAgrees, unit, unit', fused, free]

/- The rows and columns of a real plane, for the two nodes of each layout. -/
theorem realPlaneRows {kind : String} {rowNode full : Node} {rc : Bool → Node} (positive : 0 < n0 ∧ 0 < n1 ∧ 0 < batch)
    (whole : request.batch = batch)
    (rowCalls : Executed (batch * n0) (batch * (n1 / 2 + 1)) ((Compiled.mk rowNode .row []).calls parts batch))
    (rcCalls : ∀ ends, Executed (batch * n0) (batch * (n1 / 2 + 1)) ((Compiled.mk (rc ends) .row []).calls parts batch))
    (fullCalls : Executed (batch * n0) (batch * (n1 / 2 + 1)) ((Compiled.mk full .row []).calls parts batch)) :
    PlaneRows (batch * n0) (batch * (n1 / 2 + 1))
      (compileRaw2dReal getenv parts rowPlan colPlan n0 n1 request batch kind rowNode rc full).requests
      ((compileRaw2dReal getenv parts rowPlan colPlan n0 n1 request batch kind rowNode rc full).calls parts batch) ↔
      RealPlaneAgrees getenv rowPlan colPlan n0 n1 request kind := by
  obtain ⟨rowsPositive, columnsPositive, batched⟩ := positive
  have shared : request.batch = (batch * (n1 / 2 + 1) : ℕ) ↔ n1 = 1 := by
    rw [whole, Nat.cast_inj, eq_comm, Nat.mul_eq_left batched.ne']
    omega
  unfold compileRaw2dReal
  dsimp only
  split_ifs with unit aiv maca rcCol compact
  · simp [PlaneRows, Rows, Compiled.calls, callAxes, Node.steps, calledBatch, axisRequest, RealPlaneAgrees, unit]
  · refine iff_of_false (fun same => ?_) (by simp [RealPlaneAgrees, unit, aiv])
    have wide : n1 = 64 := by
      simp only [useNpuAivFft64Real, useNpuAivFft64, decide_eq_true_eq] at aiv
      exact aiv.2.2.2.2.2.1
    have narrow := shared.mp (same.2.1 request (by simp))
    omega
  · refine (ownRoute rowCalls).trans (iff_of_true rfl (.inr ⟨by simpa using aiv, .inr ?_⟩))
    simp only [maca2dRealRowsEnabled, decide_eq_true_eq] at maca
    simp only [rcColumn, rcEligible, decide_eq_true_eq, decide_eq_false_iff_not]
    omega
  · refine (sharedRoute (rcCalls _)).trans ?_
    rw [shared]
    simp [RealPlaneAgrees, unit, aiv, rcCol]
  · refine (ownRoute rowCalls).trans ?_
    simp [RealPlaneAgrees, unit, aiv, rcCol]
  · refine (ownRoute fullCalls).trans ?_
    simp [RealPlaneAgrees, unit, aiv, rcCol]

theorem realForwardPlane (positive : 0 < n0 ∧ 0 < n1 ∧ 0 < batch) (whole : request.batch = batch) :
    PlaneRows (batch * n0) (batch * (n1 / 2 + 1)) (compileRaw2dR2cNode getenv parts rowPlan colPlan n0 n1 request batch).requests
      ((compileRaw2dR2cNode getenv parts rowPlan colPlan n0 n1 request batch).calls parts batch) ↔
      RealPlaneAgrees getenv rowPlan colPlan n0 n1 request "r2c" :=
  realPlaneRows positive whole (rowsFirst _ _) (fun ends => by cases ends <;> exact rowsFirst _ _) (rowsFirst _ _)

theorem realInversePlane (positive : 0 < n0 ∧ 0 < n1 ∧ 0 < batch) (whole : request.batch = batch) :
    PlaneRows (batch * n0) (batch * (n1 / 2 + 1)) (compileRaw2dC2rNode getenv parts rowPlan colPlan n0 n1 request batch).requests
      ((compileRaw2dC2rNode getenv parts rowPlan colPlan n0 n1 request batch).calls parts batch) ↔
      RealPlaneAgrees getenv rowPlan colPlan n0 n1 request "c2r" :=
  realPlaneRows positive whole (columnsFirst _ _) (fun ends => by cases ends <;> exact columnsFirst _ _) (columnsFirst _ _)

end Plane

section Cube
variable {parts : Parts} {n0 n1 n2 width batch : ℕ} {only : Axis} {request : FftRequest}

def CubeMatches (parts : Parts) (n0 n1 width batch : ℕ) (compiled : Compiled) : Prop :=
  CubeRows n0 n1 width batch compiled.requests (compiled.calls parts batch)

/- A node over three axes, each with its own request. -/
theorem ownCube (schedule : CubeSchedule) : CubeMatches parts n0 n1 width batch
    ⟨cubeNode parts n0 n1 n2 width schedule, only, ownCubeRequests n0 n1 n2 request batch width⟩ := by
  intro axis member
  refine ⟨fun other inside => ?_, fun called inside => cubeCalls inside⟩
  simp only [ownCubeRequests, List.mem_cons, Prod.mk.injEq, List.not_mem_nil, or_false] at inside
  rcases inside with ⟨rfl, rfl⟩ | ⟨rfl, rfl⟩ | ⟨rfl, rfl⟩ <;> rfl

variable (getenv : String → Option String) (plans : CubePlans) (n0 n1 n2 : ℕ) (request : FftRequest) (batch : ℕ)

/- Planes in one kernel, and the remaining axis compiled with the request of the cube. -/
def sharedPlane : Bool :=
  (ixFusedPlane getenv plans n0 n1 n2 request batch = true ∧ ixFusedCube getenv plans n0 n1 n2 request batch = false ∧
      ixColumn getenv n0 n1 n2 request = false) ∨
    (smallPlane getenv plans n0 n1 n2 request batch = true ∧ fusedCube getenv plans n0 n1 n2 request batch = false)

/- The small cube on strided leaves, where no kernel of its own is made for it. -/
def sharedStrided : Bool :=
  stridedCube plans n0 n1 n2 batch = true ∧ npuSmallStridedCube getenv n0 n1 n2 request batch = false ∧
    ixFusedCube getenv plans n0 n1 n2 request batch = false ∧ ixFusedPlane getenv plans n0 n1 n2 request batch = false ∧
    fusedCube getenv plans n0 n1 n2 request batch = false ∧ smallPlane getenv plans n0 n1 n2 request batch = false ∧
    macaFusedC2c32 getenv plans n0 n1 n2 request batch = false

def ComplexCubeAgrees : Prop :=
  sharedPlane getenv plans n0 n1 n2 request batch = false ∧
    (sharedStrided getenv plans n0 n1 n2 request batch = true → n0 = 1 ∧ n1 = 1 ∧ n2 = 1)

/- The outer axes are not executed one batch after another. -/
def RealCubeAgrees : Prop := npuFusedOuterStores getenv plans n0 n1 n2 request batch = true → batch = 1

variable {getenv plans n0 n1 n2 request batch}

section Kinds

theorem sidesSame {length : ℕ} (same : sides n0 n1 n2 length = true) : n0 = length ∧ n1 = length ∧ n2 = length := by
  simpa only [sides, decide_eq_true_eq] using same

theorem ixCubeDevice (fused : ixFusedCube getenv plans n0 n1 n2 request batch = true) : request.deviceType = "ix" := by
  simp only [ixFusedCube, ix71, decide_eq_true_eq] at fused
  exact fused.1.1

/- The planes of an IX are those of a cube of side 16 or 32. -/
theorem ixPlaneSides (planes : ixFusedPlane getenv plans n0 n1 n2 request batch = true) : request.deviceType = "ix" ∧
    (ixFusedSize getenv n0 n1 n2 request = 16 ∨ ixFusedSize getenv n0 n1 n2 request = 32) ∧
    n0 = ixFusedSize getenv n0 n1 n2 request ∧ n1 = ixFusedSize getenv n0 n1 n2 request ∧
    n2 = ixFusedSize getenv n0 n1 n2 request := by
  simp only [ixFusedPlane, decide_eq_true_eq] at planes
  obtain ⟨some_, _⟩ := planes
  unfold ixFusedSize at some_ ⊢
  split_ifs at some_ ⊢ with small large
  · simp only [ix71, decide_eq_true_eq] at small
    exact ⟨small.1.1, .inl rfl, sidesSame small.2.2⟩
  · simp only [ix71, decide_eq_true_eq] at large
    exact ⟨large.1.1, .inr rfl, sidesSame large.2.2⟩
  · exact absurd rfl some_

theorem smallPlaneSides (plane : smallPlane getenv plans n0 n1 n2 request batch = true) :
    (request.deviceType = "musa" ∨ request.deviceType = "hcu" ∨ request.deviceType = "maca") ∧
      (n0 = 16 ∨ n0 = 32) ∧ n1 = n0 ∧ n2 = n0 := by
  simp only [smallPlane, fused16, fused32, decide_eq_true_eq] at plane
  obtain ⟨⟨device, same, _⟩ | ⟨device, same, _⟩, _⟩ := plane
  · obtain ⟨rfl, rfl, rfl⟩ := sidesSame same
    exact ⟨device, .inl rfl, rfl, rfl⟩
  · obtain ⟨rfl, rfl, rfl⟩ := sidesSame same
    exact ⟨.inr (.inl device), .inr rfl, rfl, rfl⟩

theorem sharedPlaneDevice (shared : sharedPlane getenv plans n0 n1 n2 request batch = true) : request.deviceType ≠ "npu" := by
  intro npu
  simp only [sharedPlane, decide_eq_true_eq] at shared
  rcases shared with ⟨ix, _⟩ | ⟨plane, _⟩
  · have device := (ixPlaneSides ix).1
    simp [npu] at device
  · have device := (smallPlaneSides plane).1
    simp [npu] at device

/- Only the small cubes run on strided leaves. -/
theorem largeAgrees (plane : sharedPlane getenv plans n0 n1 n2 request batch = false)
    (large : kStridedMaxElements < batch * n0 * n1 * n2) : ComplexCubeAgrees getenv plans n0 n1 n2 request batch := by
  refine ⟨plane, fun strided => ?_⟩
  simp only [sharedStrided, stridedCube, decide_eq_true_eq] at strided
  omega

theorem otherAgrees (plane : sharedPlane getenv plans n0 n1 n2 request batch = false)
    (other : sharedStrided getenv plans n0 n1 n2 request batch = false) : ComplexCubeAgrees getenv plans n0 n1 n2 request batch :=
  ⟨plane, fun strided => absurd (strided.symm.trans other) (by decide)⟩

end Kinds

/- One axis is executed, so many times, with these requests. -/
theorem outerRoute {node : Node} {axis : Axis} {called : ℕ} {requests : List (Axis × FftRequest)}
    (calls : (Compiled.mk node axis requests).calls parts batch = [(axis, called)]) (inner : axis ∈ [Axis.n2, .n1, .n0])
    (alone : ∀ other request, (other, request) ∈ requests → other = axis) :
    CubeMatches parts n0 n1 width batch ⟨node, axis, requests⟩ ↔
      (∀ request, (axis, request) ∈ requests → request.batch = cubeRows n0 n1 width batch axis) ∧
        called = cubeRows n0 n1 width batch axis := by
  unfold CubeMatches CubeRows Rows
  rw [calls]
  constructor
  · intro all
    exact ⟨(all axis inner).1, (all axis inner).2 called (by simp)⟩
  · rintro ⟨requests_, executed⟩ other _
    refine ⟨fun request member => ?_, fun batch_ member => ?_⟩
    · obtain rfl := alone other request member
      exact requests_ request member
    · simp only [List.mem_singleton, Prod.mk.injEq] at member
      obtain ⟨rfl, rfl⟩ := member
      exact executed

theorem complexCube (positive : 0 < n0 ∧ 0 < n1 ∧ 0 < n2 ∧ 0 < batch) (whole : request.batch = batch) :
    CubeMatches parts n0 n1 n2 batch (compileRaw3dNode getenv parts plans n0 n1 n2 request batch) ↔
      ComplexCubeAgrees getenv plans n0 n1 n2 request batch := by
  obtain ⟨positive0, positive1, positive2, batched⟩ := positive
  have noCalls : CubeMatches parts n0 n1 n2 batch ⟨.cubeFused, .n2, []⟩ := by
    intro axis member
    exact ⟨fun other inside => by simp at inside, fun called inside => absurd inside List.not_mem_nil⟩
  unfold compileRaw3dNode
  dsimp only
  by_cases pair : npuPairFusedStore getenv plans n0 n1 n2 request batch = true
  · rw [if_pos pair]
    refine iff_of_true (ownCube _) ?_
    simp only [npuPairFusedStore, decide_eq_true_eq] at pair
    obtain ⟨rfl, rfl, rfl⟩ := sidesSame pair.2.2.2.2.2.1
    refine largeAgrees (Bool.eq_false_iff.mpr fun shared => sharedPlaneDevice shared pair.1) ?_
    unfold kStridedMaxElements
    omega
  rw [if_neg pair]
  by_cases small : npuSmallStridedCube getenv n0 n1 n2 request batch = true
  · rw [if_pos small]
    refine iff_of_true (ownCube _) (otherAgrees (Bool.eq_false_iff.mpr fun shared => sharedPlaneDevice shared ?_) ?_)
    · simp only [npuSmallStridedCube, decide_eq_true_eq] at small
      exact small.1
    · simp [sharedStrided, small]
  rw [if_neg small]
  by_cases fused : ixFusedCube getenv plans n0 n1 n2 request batch = true
  · rw [if_pos fused]
    refine iff_of_true noCalls (otherAgrees (decide_eq_false ?_) (by simp [sharedStrided, fused]))
    rintro (⟨_, notFused, _⟩ | ⟨plane, _⟩)
    · exact absurd (fused.symm.trans notFused) (by decide)
    · have device := (smallPlaneSides plane).1
      simp [ixCubeDevice fused] at device
  rw [if_neg fused]
  by_cases planes : ixFusedPlane getenv plans n0 n1 n2 request batch = true
  · rw [if_pos planes]
    obtain ⟨device, size, same0, same1, same2⟩ := ixPlaneSides planes
    have called : batch * ixFusedSize getenv n0 n1 n2 request * ixFusedSize getenv n0 n1 n2 request = batch * n1 * n2 :=
      congrArg₂ (batch * · * ·) same1.symm same2.symm
    have alone : sharedStrided getenv plans n0 n1 n2 request batch = false := by simp [sharedStrided, planes]
    by_cases column : ixColumn getenv n0 n1 n2 request = true
    · rw [if_pos column]
      refine iff_of_true ((outerRoute rfl (by simp) (by simp)).mpr ⟨by simp, called⟩) (otherAgrees (decide_eq_false ?_) alone)
      rintro (⟨_, _, notColumn⟩ | ⟨plane, _⟩)
      · exact absurd (column.symm.trans notColumn) (by decide)
      · have other := (smallPlaneSides plane).1
        simp [device] at other
    · rw [if_neg column]
      have shared : sharedPlane getenv plans n0 n1 n2 request batch = true :=
        decide_eq_true (.inl ⟨planes, Bool.eq_false_iff.mpr fused, Bool.eq_false_iff.mpr column⟩)
      refine iff_of_false (fun matches_ => ?_) fun agrees => absurd (shared.symm.trans agrees.1) (by decide)
      have same : batch = batch * n1 * n2 := Nat.cast_injective (whole.symm.trans ((matches_ .n0 (by simp)).1 request (by simp)))
      rw [← called] at same
      rcases size with sixteen | thirtyTwo
      · rw [sixteen] at same
        omega
      · rw [thirtyTwo] at same
        omega
  rw [if_neg planes]
  by_cases cube_ : fusedCube getenv plans n0 n1 n2 request batch = true
  · rw [if_pos cube_]
    refine iff_of_true noCalls (otherAgrees (decide_eq_false ?_) (by simp [sharedStrided, cube_]))
    rintro (⟨ix, _⟩ | ⟨_, notFused⟩)
    · exact planes ix
    · exact absurd (cube_.symm.trans notFused) (by decide)
  rw [if_neg cube_]
  by_cases plane : smallPlane getenv plans n0 n1 n2 request batch = true
  · rw [if_pos plane]
    have shared : sharedPlane getenv plans n0 n1 n2 request batch = true :=
      decide_eq_true (.inr ⟨plane, Bool.eq_false_iff.mpr cube_⟩)
    refine iff_of_false (fun matches_ => ?_) fun agrees => absurd (shared.symm.trans agrees.1) (by decide)
    have same : batch = batch * n1 * n2 := Nat.cast_injective (whole.symm.trans ((matches_ .n0 (by simp)).1 request (by simp)))
    obtain ⟨_, side, rfl, rfl⟩ := smallPlaneSides plane
    rcases side with rfl | rfl <;> omega
  rw [if_neg plane]
  have noPlane : sharedPlane getenv plans n0 n1 n2 request batch = false :=
    decide_eq_false fun shared => shared.elim (fun ix => planes ix.1) fun other => plane other.1
  by_cases prime : hcuPrimePlane getenv plans n0 n1 n2 request batch = true
  · rw [if_pos prime]
    refine iff_of_true ((outerRoute rfl (by simp) (by simp)).mpr ⟨by simp [axisRequest, cubeRows], rfl⟩) (largeAgrees noPlane ?_)
    simp only [hcuPrimePlane, decide_eq_true_eq] at prime
    obtain ⟨_, rfl, rfl, rfl, rfl, _⟩ := prime
    decide
  rw [if_neg prime]
  by_cases maca : macaFusedC2c32 getenv plans n0 n1 n2 request batch = true
  · rw [if_pos maca]
    refine iff_of_true ((outerRoute rfl (by simp) (by simp)).mpr ⟨by simp [axisRequest, cubeRows], ?_⟩)
      (otherAgrees noPlane (by simp [sharedStrided, maca]))
    simp only [macaFusedC2c32, decide_eq_true_eq] at maca
    obtain ⟨rfl, rfl, rfl⟩ := sidesSame maca.2.1
    rfl
  rw [if_neg maca]
  by_cases long : longAxisHybrid getenv plans n0 n1 n2 request batch = true
  · rw [if_pos long]
    simp only [longAxisHybrid, decide_eq_true_eq] at long
    exact iff_of_true (ownCube _) (largeAgrees noPlane long.2.2.2.2.2)
  rw [if_neg long]
  have screens : ∀ name, macaCubeScreen getenv plans n0 n1 n2 request batch name = true →
      ComplexCubeAgrees getenv plans n0 n1 n2 request batch := by
    intro name screen
    simp only [macaCubeScreen, decide_eq_true_eq] at screen
    obtain ⟨_, rfl, same, _⟩ := screen
    obtain ⟨rfl, rfl, rfl⟩ := sidesSame same
    exact largeAgrees noPlane (by decide)
  by_cases first : macaCubeScreen getenv plans n0 n1 n2 request batch "FLAGFFT_MACA_3D_CUBE_FIRST_STORE" = true
  · rw [if_pos first]
    exact iff_of_true (ownCube _) (screens _ first)
  rw [if_neg first]
  by_cases final : macaCubeScreen getenv plans n0 n1 n2 request batch "FLAGFFT_MACA_3D_FINAL_STORE" = true
  · rw [if_pos final]
    exact iff_of_true (ownCube _) (screens _ final)
  rw [if_neg final]
  by_cases hybrid_ : hybrid getenv plans n0 n1 n2 request batch = true
  · rw [if_pos hybrid_]
    refine iff_of_true (ownCube _) (largeAgrees noPlane ?_)
    simp only [hybrid, portableHybrid, ixHybrid, decide_eq_true_eq] at hybrid_
    rcases hybrid_.2.2 with portable | ix
    · exact portable.2.1.2
    · exact ix.2.2.2
  rw [if_neg hybrid_]
  by_cases store : fusedStore getenv plans n0 n1 n2 request batch = true
  · rw [if_pos store]
    have large : kStridedMaxElements < batch * n0 * n1 * n2 := by
      simp only [fusedStore, decide_eq_true_eq] at store
      exact store.2.2
    split
    · exact iff_of_true (ownCube _) (largeAgrees noPlane large)
    · exact iff_of_true (ownCube _) (largeAgrees noPlane large)
  rw [if_neg store]
  by_cases strided : stridedCube plans n0 n1 n2 batch = true
  · rw [if_pos strided]
    have alone : sharedStrided getenv plans n0 n1 n2 request batch = true := by
      simp [sharedStrided, strided, small, fused, planes, cube_, plane, maca]
    constructor
    · intro matches_
      refine ⟨noPlane, fun _ => ?_⟩
      have middle : batch = batch * n0 * n2 := Nat.cast_injective (whole.symm.trans ((matches_ .n1 (by simp)).1 request (by simp)))
      have outer : batch = batch * n1 * n2 := Nat.cast_injective (whole.symm.trans ((matches_ .n0 (by simp)).1 request (by simp)))
      rw [Nat.mul_assoc] at middle outer
      have one := Nat.eq_of_mul_eq_mul_left batched ((Nat.mul_one batch).trans middle)
      have one' := Nat.eq_of_mul_eq_mul_left batched ((Nat.mul_one batch).trans outer)
      exact ⟨Nat.eq_one_of_mul_eq_one_right one.symm, Nat.eq_one_of_mul_eq_one_right one'.symm, Nat.eq_one_of_mul_eq_one_left one.symm⟩
    · intro agrees
      obtain ⟨rfl, rfl, rfl⟩ := agrees.2 alone
      intro axis member
      refine ⟨fun other inside => ?_, fun called inside => cubeCalls inside⟩
      simp only [List.mem_cons, Prod.mk.injEq, List.not_mem_nil, or_false] at inside
      rcases inside with ⟨rfl, rfl⟩ | ⟨rfl, rfl⟩ | ⟨rfl, rfl⟩
      · rfl
      · simpa [cubeRows] using whole
      · simpa [cubeRows] using whole
  rw [if_neg strided]
  have agrees := otherAgrees noPlane (by simp [sharedStrided, strided] : sharedStrided getenv plans n0 n1 n2 request batch = false)
  split
  · exact iff_of_true (ownCube _) agrees
  · exact iff_of_true (ownCube _) agrees

section Real
variable {kind : RealKind}

theorem realPlaneCalls {requests : List (Axis × FftRequest)} : (Compiled.mk (realPlaneNode parts n0 n1 n2 kind) .n0 requests).calls
    parts batch = [(.n0, batch * n1 * (n2 / 2 + 1))] := by
  cases kind <;> rfl

theorem realPlaneMatches {requests : List (Axis × FftRequest)} (alone : ∀ other request, (other, request) ∈ requests → other = .n0)
    (own : ∀ request, (.n0, request) ∈ requests → request.batch = (batch * n1 * (n2 / 2 + 1) : ℕ)) :
    CubeMatches parts n0 n1 (n2 / 2 + 1) batch ⟨realPlaneNode parts n0 n1 n2 kind, .n0, requests⟩ :=
  (outerRoute realPlaneCalls (by simp) alone).mpr ⟨own, rfl⟩

theorem outerRequestMatches : CubeMatches parts n0 n1 (n2 / 2 + 1) batch
    ⟨realPlaneNode parts n0 n1 n2 kind, .n0, outerRequest n0 n1 n2 request batch⟩ :=
  realPlaneMatches (by simp [outerRequest]) (by simp [outerRequest, axisRequest])

/- Every route of the compact leaves makes its own requests. -/
theorem realLeafMatches {compiled : Compiled}
    (found : compileRaw3dRealLeafNode getenv parts plans n0 n1 n2 request batch kind = some compiled) :
    CubeMatches parts n0 n1 (n2 / 2 + 1) batch compiled := by
  unfold compileRaw3dRealLeafNode at found
  dsimp only at found
  split_ifs at found
  all_goals cases found
  · exact ownCube _
  · exact outerRequestMatches
  · exact outerRequestMatches
  · exact outerRequestMatches
  · intro axis member
    exact ⟨fun other inside => by simp at inside, fun called inside => absurd inside List.not_mem_nil⟩
  · exact realPlaneMatches (by simp) (by simp)
  · exact outerRequestMatches
  · exact ownCube _

/- The cube whose outer axes are fused is too large for the compact leaves of an NPU. -/
theorem fusedOuterNoLeaf (outer : npuFusedOuterStores getenv plans n0 n1 n2 request batch = true) (batched : 0 < batch) :
    compileRaw3dRealLeafNode getenv parts plans n0 n1 n2 request batch kind = none := by
  simp only [npuFusedOuterStores, npuAiv256Real, npuRealRequest, npuRealKind, decide_eq_true_eq] at outer
  obtain ⟨⟨⟨⟨npu, _⟩, _⟩, _⟩, _, same, _⟩ := outer
  obtain ⟨rfl, rfl, rfl⟩ := sidesSame same
  unfold compileRaw3dRealLeafNode
  dsimp only
  by_cases none_ : noRealLeaf getenv 256 256 256 request batch = true
  · rw [if_pos none_]
  rw [if_neg none_]
  have screen : npuRealLeafScreen getenv 256 256 256 request batch = true := by
    by_contra off
    refine none_ (decide_eq_true ?_)
    simp [npu, ixRealLeafScreen, ixRealFusedScreen, ix71, macaRealCompact, Bool.eq_false_iff.mpr off]
  have sideless : npuSmallRealCube getenv 256 256 256 request batch = false := by simp [npuSmallRealCube, cubeSides]
  rw [if_neg (by simp [sideless])]
  by_cases missing : missingLeaf getenv plans 256 256 256 request batch = true
  · rw [if_pos missing]
  rw [if_neg missing, if_neg (by simp [realFused32, npu])]
  have large : smallReal plans 256 256 256 batch = false := by
    simp only [smallReal, decide_eq_false_iff_not]
    omega
  exact if_pos (decide_eq_true (.inr (.inl ⟨screen, large⟩)))

/- One batch after another: only a single one is the whole axis. -/
theorem fusedOuterMatches {n2' : ℕ} (positive : 0 < n0 ∧ 0 < n2') (few : batch = 1 ∨ batch = 4) :
    CubeMatches parts n0 n1 n2' batch
      ⟨.cubeRtrtFusedOuter (cube parts n0 n1 n2 n2') kind (parts.fft .n2) (parts.fft .n1) (parts.fft .n0), .n2,
        ownCubeRequests n0 n1 n2 request batch n2'⟩ ↔ batch = 1 := by
  constructor
  · intro matches_
    refine few.resolve_right fun four => ?_
    subst four
    have called : (Axis.n1, n0 * n2') ∈ (Compiled.mk (.cubeRtrtFusedOuter (cube parts n0 n1 n2 n2') kind (parts.fft .n2)
        (parts.fft .n1) (parts.fft .n0)) .n2 (ownCubeRequests n0 n1 n2 request 4 n2')).calls parts 4 := by
      cases kind
      · exact List.mem_cons_of_mem _ List.mem_cons_self
      · exact List.mem_cons_self
    have same : n0 * n2' = 4 * n0 * n2' := (matches_ .n1 (by simp)).2 _ called
    have some_ := Nat.mul_pos positive.1 positive.2
    rw [Nat.mul_assoc] at same
    omega
  · rintro rfl
    have calls : ∀ axis called, (axis, called) ∈ (Compiled.mk (.cubeRtrtFusedOuter (cube parts n0 n1 n2 n2') kind (parts.fft .n2)
        (parts.fft .n1) (parts.fft .n0)) .n2 (ownCubeRequests n0 n1 n2 request 1 n2')).calls parts 1 →
        (axis, called) ∈ [(Axis.n2, 1 * n0 * n1), (.n1, n0 * n2'), (.n0, n1 * n2')] := by
      intro axis called inside
      cases kind
      · exact inside
      · have order : (axis, called) ∈ [(Axis.n1, n0 * n2'), (.n0, n1 * n2'), (.n2, 1 * n0 * n1)] := inside
        simpa [or_comm, or_assoc, or_left_comm] using order
    intro axis member
    refine ⟨fun other inside => ?_, fun called inside => ?_⟩
    · simp only [ownCubeRequests, List.mem_cons, Prod.mk.injEq, List.not_mem_nil, or_false] at inside
      rcases inside with ⟨rfl, rfl⟩ | ⟨rfl, rfl⟩ | ⟨rfl, rfl⟩ <;> rfl
    · have found := calls axis called inside
      simp only [List.mem_cons, Prod.mk.injEq, List.not_mem_nil, or_false] at found
      rcases found with ⟨rfl, rfl⟩ | ⟨rfl, rfl⟩ | ⟨rfl, rfl⟩ <;> simp [cubeRows]

theorem realRtrtMatches {compiled : Compiled} (positive : 0 < n0)
    (found : compileRaw3dRealRtrtNode getenv parts plans n0 n1 n2 request batch kind = some compiled) :
    CubeMatches parts n0 n1 (n2 / 2 + 1) batch compiled ↔ RealCubeAgrees getenv plans n0 n1 n2 request batch := by
  unfold compileRaw3dRealRtrtNode at found
  dsimp only at found
  split_ifs at found with none_ planes outer
  · cases found
    refine iff_of_true outerRequestMatches fun outer => ?_
    simp only [npuFusedReal32Plane, decide_eq_true_eq] at planes
    simp only [npuFusedOuterStores, decide_eq_true_eq] at outer
    obtain ⟨rfl, rfl, rfl⟩ := sidesSame planes.2.2.1
    simp [sides] at outer
  · cases found
    have few : batch = 1 ∨ batch = 4 := by
      simp only [npuFusedOuterStores, decide_eq_true_eq] at outer
      exact outer.2.1
    rw [fusedOuterMatches ⟨positive, Nat.succ_pos _⟩ few]
    exact ⟨fun single _ => single, fun agrees => agrees outer⟩
  · have agrees : RealCubeAgrees getenv plans n0 n1 n2 request batch := fun stores => absurd stores outer
    cases kind
    · cases found
      exact iff_of_true (ownCube _) agrees
    · cases found
      exact iff_of_true (ownCube _) agrees

/- Real ends around the complex axes. -/
theorem realEndsMatches : CubeMatches parts n0 n1 (n2 / 2 + 1) batch
    ⟨match kind with
      | .r2c => .cubeR2c (realCubeEnds parts n0 n1 n2) (parts.fft .n2) (parts.fft .n1) (parts.fft .n0)
      | .c2r => .cubeC2r (realCubeEnds parts n0 n1 n2) (parts.fft .n0) (parts.fft .n1) (parts.fft .n2),
      .n2, ownCubeRequests n0 n1 n2 request batch (n2 / 2 + 1)⟩ := by
  intro axis member
  refine ⟨fun other inside => ?_, fun called inside => ?_⟩
  · simp only [ownCubeRequests, List.mem_cons, Prod.mk.injEq, List.not_mem_nil, or_false] at inside
    rcases inside with ⟨rfl, rfl⟩ | ⟨rfl, rfl⟩ | ⟨rfl, rfl⟩ <;> rfl
  · have found : (axis, called) ∈ [(Axis.n2, batch * n0 * n1), (.n1, batch * n0 * (n2 / 2 + 1)), (.n0, batch * n1 * (n2 / 2 + 1))] := by
      cases kind
      · exact inside
      · have order : (axis, called) ∈
            [(Axis.n0, batch * n1 * (n2 / 2 + 1)), (.n1, batch * n0 * (n2 / 2 + 1)), (.n2, batch * n0 * n1)] := inside
        simpa [or_comm, or_assoc, or_left_comm] using order
    simp only [List.mem_cons, Prod.mk.injEq, List.not_mem_nil, or_false] at found
    rcases found with ⟨rfl, rfl⟩ | ⟨rfl, rfl⟩ | ⟨rfl, rfl⟩ <;> rfl

/- The fused outer stores are those of a native transform. -/
theorem native (outer : npuFusedOuterStores getenv plans n0 n1 n2 request batch = true) :
    npuRealNative getenv n0 n1 n2 request batch = true := by
  simp only [npuFusedOuterStores, decide_eq_true_eq] at outer
  simp [npuRealNative, outer.1]

theorem realCube (positive : 0 < n0 ∧ 0 < n1 ∧ 0 < n2 ∧ 0 < batch) :
    CubeMatches parts n0 n1 (n2 / 2 + 1) batch (compileRaw3dRealNode getenv parts plans n0 n1 n2 request batch kind) ↔
      RealCubeAgrees getenv plans n0 n1 n2 request batch := by
  unfold compileRaw3dRealNode
  cases leaf : compileRaw3dRealLeafNode getenv parts plans n0 n1 n2 request batch kind with
  | some compiled =>
      refine iff_of_true (realLeafMatches leaf) fun outer => ?_
      rw [fusedOuterNoLeaf outer positive.2.2.2] at leaf
      cases leaf
  | none =>
      cases rtrt : compileRaw3dRealRtrtNode getenv parts plans n0 n1 n2 request batch kind with
      | some compiled => exact realRtrtMatches positive.1 rtrt
      | none =>
          refine iff_of_true realEndsMatches fun outer => ?_
          simp only [compileRaw3dRealRtrtNode, native outer, Bool.true_eq_false, false_and, if_false] at rtrt
          split_ifs at rtrt

end Real

end Cube

section Descriptors
variable (device : Device) (getenv : String → Option String)

/- Where the axes of a plane agree, by the type of the transform. -/
def PlaneDesc.Agrees (desc : PlaneDesc) (rowPlan colPlan : PlanNode) : Prop :=
  let request := requestOf device desc.type 2 2 (desc.n0 * desc.n1) desc.batch
  if desc.type = .r2c ∨ desc.type = .d2z then RealPlaneAgrees getenv rowPlan colPlan desc.n0 desc.n1 (request "forward") "r2c"
  else if desc.type = .c2r ∨ desc.type = .z2d then RealPlaneAgrees getenv rowPlan colPlan desc.n0 desc.n1 (request "inverse") "c2r"
  else ComplexPlaneAgrees getenv rowPlan colPlan desc.n0 desc.n1 (request "forward")

def CubeDesc.Agrees (desc : CubeDesc) (plans : CubePlans) : Prop :=
  let request := requestOf device desc.type 3 3 (desc.n0 * desc.n1 * desc.n2) desc.batch
  if desc.type = .r2c ∨ desc.type = .d2z then RealCubeAgrees getenv plans desc.n0 desc.n1 desc.n2 (request "forward") desc.batch
  else if desc.type = .c2r ∨ desc.type = .z2d then
    RealCubeAgrees getenv plans desc.n0 desc.n1 desc.n2 (request "inverse") desc.batch
  else ComplexCubeAgrees getenv plans desc.n0 desc.n1 desc.n2 (request "forward") desc.batch

variable {device getenv} {parts : Parts}

theorem planeAgrees (desc : PlaneDesc) (rowPlan colPlan : PlanNode) :
    (∀ compiled ∈ desc.compile device getenv parts rowPlan colPlan,
      SameWorkload (desc.axisRequests device) compiled (compiled.calls parts desc.batch)) ↔
      desc.Agrees device getenv rowPlan colPlan := by
  simp only [planeSame]
  unfold PlaneDesc.compile PlaneDesc.Agrees
  dsimp only
  split_ifs with forward inverse
  · rw [List.forall_mem_singleton]
    exact realForwardPlane desc.positive rfl
  · rw [List.forall_mem_singleton]
    exact realInversePlane desc.positive rfl
  · rw [List.forall_mem_cons, List.forall_mem_singleton, complexPlane desc.positive rfl, complexPlane desc.positive rfl]
    -- no route asks for the direction
    exact and_self_iff

theorem cubeAgrees (desc : CubeDesc) (plans : CubePlans) :
    (∀ compiled ∈ desc.compile device getenv parts plans,
      SameWorkload (desc.axisRequests device) compiled (compiled.calls parts desc.batch)) ↔
      desc.Agrees device getenv plans := by
  simp only [cubeSame]
  unfold CubeDesc.compile CubeDesc.Agrees CubeDesc.width
  dsimp only
  by_cases forward : desc.type = .r2c ∨ desc.type = .d2z
  · have real : (desc.type.realForward || desc.type.realInverse) = true := by rcases forward with same | same <;> rw [same] <;> rfl
    rw [if_pos forward, if_pos forward, if_pos real, List.forall_mem_singleton]
    exact realCube desc.positive
  rw [if_neg forward, if_neg forward]
  by_cases inverse : desc.type = .c2r ∨ desc.type = .z2d
  · have real : (desc.type.realForward || desc.type.realInverse) = true := by rcases inverse with same | same <;> rw [same] <;> rfl
    rw [if_pos inverse, if_pos inverse, if_pos real, List.forall_mem_singleton]
    exact realCube desc.positive
  · have complex : ¬(desc.type.realForward || desc.type.realInverse) = true := by
      intro real
      cases same : desc.type <;> simp [same, TransformType.realForward, TransformType.realInverse] at forward inverse real
    rw [if_neg inverse, if_neg inverse, if_neg complex, List.forall_mem_cons, List.forall_mem_singleton]
    exact (and_congr (complexCube desc.positive rfl) (complexCube desc.positive rfl)).trans and_self_iff

theorem axisBatchesAgree (device : Device) (getenv : String → Option String) (parts : Parts) :
    (∀ (desc : PlaneDesc) (rowPlan colPlan : PlanNode),
      (∀ compiled ∈ desc.compile device getenv parts rowPlan colPlan,
        SameWorkload (desc.axisRequests device) compiled (compiled.calls parts desc.batch)) ↔
        desc.Agrees device getenv rowPlan colPlan) ∧
      ∀ (desc : CubeDesc) (plans : CubePlans),
        (∀ compiled ∈ desc.compile device getenv parts plans,
          SameWorkload (desc.axisRequests device) compiled (compiled.calls parts desc.batch)) ↔
          desc.Agrees device getenv plans :=
  ⟨planeAgrees, cubeAgrees⟩

end Descriptors

section Tall

theorem tallPositive : 0 < 512 ∧ 0 < 8 ∧ 0 < 1 := by decide

def tallDesc : PlaneDesc := ⟨.c2c, 512, 8, 1, tallPositive⟩

def cudaDevice : Device := ⟨"cuda", "sm_80"⟩

def rowLeaf : PlanNode := .leaf 8 [8] 1 1 1 [] 0

def columnLeaf : PlanNode := .leaf 512 [8, 8, 8] 1 64 2 [] 512

def leafParts : Parts where
  kernel := {}
  transpose := .triton
  perm := .triton {}
  layout := .strided
  fusedPerm _ := false
  allocation := 16384
  fft axis := .leaf { length := if axis = .row then 8 else 512, kernel := {}, tables := [] }
  context := { request := ⟨.cuda, false, true, false⟩, batch := 1, input := 8192, output := 8192 }

/- Eight columns run a plan made for five. -/
theorem tallColumnsDisagree : ¬∀ compiled ∈ tallDesc.compile cudaDevice (fun _ => none) leafParts rowLeaf columnLeaf,
    SameWorkload (tallDesc.axisRequests cudaDevice) compiled (compiled.calls leafParts tallDesc.batch) := by
  rw [planeAgrees]
  -- the column has its own request, for eight transforms
  rintro (one | one | fused | two)
  · cases one
  · cases one
  · cases fused
  · cases two.1

end Tall

end FlagFft.Axes
