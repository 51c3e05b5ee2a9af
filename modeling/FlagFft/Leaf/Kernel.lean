import FlagFft.Leaf.Tables
import FlagFft.Device

/-! The generated leaf program: one thread block transforms batchPack rows through ping-pong
shared buffers, one stage per factor. A mode says how the first stage loads an element and
how the last stage stores one; everything between is the same for every mode. -/
namespace FlagFft.Leaf
open Library.Indexing Library.Stores Library.MixedRadix

inductive Cell where
  | smemA (index : ℕ)
  | smemB (index : ℕ)
  | device (address : Address)
  deriving DecidableEq, Repr

/- laneFloor is the portable exchange's lower bound on the lane block, one elsewhere. A single
shared buffer is only used when every stage before the last runs one group. -/
structure LeafPlan where
  factors : List ℕ
  stageLanes : List ℕ
  batchPack : ℕ
  laneFloor : ℕ
  singleSmemBuffer : Bool
  nonempty : 0 < factors.length
  positive : 0 < factors.prod
  lanesLength : stageLanes.length = factors.length
  lanesFit : ∀ stage < factors.length, LanesFit factors stage (stageLanes.getD stage 1)
  packPositive : 0 < batchPack
  singleSafe : singleSmemBuffer = true → ∀ stage, stage + 1 < factors.length →
    groupCount factors stage (stageLanes.getD stage 1) = 1

namespace LeafPlan
variable (plan : LeafPlan)

def length : ℕ := plan.factors.prod

def stages : ℕ := plan.factors.length

def last : ℕ := plan.stages - 1

def radix (stage : ℕ) : ℕ := radixAt plan.factors stage

def lanes (stage : ℕ) : ℕ := plan.stageLanes.getD stage 1

def groups (stage : ℕ) : ℕ := groupCount plan.factors stage (plan.lanes stage)

def activeLanes : ℕ := plan.stageLanes.foldr max 0

def laneBlock : ℕ := max (ceilPowerOfTwo plan.activeLanes) plan.laneFloor

def vectorBlock : ℕ := plan.laneBlock * plan.batchPack

def smemSize : ℕ := if plan.factors.length ≤ 1 then 0 else ceilPowerOfTwo plan.length

def smemSlotStride : ℕ := if plan.batchPack ≥ 4 then plan.smemSize + 1 else plan.smemSize

def sourceBuffer (stage : ℕ) : ℕ → Cell :=
  if plan.singleSmemBuffer ∨ stage % 2 = 1 then .smemB else .smemA

def destBuffer (stage : ℕ) : ℕ → Cell :=
  if plan.singleSmemBuffer ∨ stage % 2 = 0 then .smemB else .smemA

/- batch_slot and lane of every element of lane_vec -/
def threads : List (ℕ × ℕ) :=
  (List.range plan.vectorBlock).map fun laneVec =>
    (laneVec / plan.laneBlock, laneVec - laneVec / plan.laneBlock * plan.laneBlock)

def currentBatch (pid slot : ℕ) : ℕ := pid * plan.batchPack + slot

def laneMask (pid nbatch stage slot lane : ℕ) : Prop :=
  lane < plan.activeLanes ∧ plan.currentBatch pid slot < nbatch ∧ lane < plan.lanes stage

instance {pid nbatch stage slot lane} : Decidable (plan.laneMask pid nbatch stage slot lane) :=
  inferInstanceAs (Decidable (_ ∧ _ ∧ _))

def logicalPhys (stage lane group digit : ℕ) : ℕ :=
  lane + plan.lanes stage * (group * plan.radix stage + digit)

def codelet (stage lane group : ℕ) : ℕ := lane + plan.lanes stage * group

end LeafPlan

/- load reads element `index` of the row of a batch, store writes one output element;
both are also given the shared-memory offset of the batch slot. -/
structure LeafMode (R : Type*) where
  load : (Cell → R) → (batch offset index : ℕ) → R
  store : (Cell → R) → (batch offset index : ℕ) → R → List (Store Cell R)

section Program
variable {R : Type*} [CommRing R] (plan : LeafPlan) (mode : LeafMode R) (tables : List (ℕ → R))
  (codelets : ℕ → (ℕ → R) → ℕ → R) (pid nbatch : ℕ)

def leafTables (w : R) : Except String (List (ℕ → R)) :=
  (List.range' 1 (plan.stages - 1)).mapM fun stage =>
    buildStageTwiddles w plan.factors stage (plan.lanes stage)

def stageLoad (stage : ℕ) (m : Cell → R) (slot lane group digit : ℕ) : R :=
  let offset := slot * plan.smemSlotStride
  if stage = 0 then
    mode.load m (plan.currentBatch pid slot) offset
      (inputIndex plan.factors (plan.codelet stage lane group) digit)
  else
    m (plan.sourceBuffer stage (plan.logicalPhys stage lane group digit + offset)) *
      tables.getD (stage - 1) (fun _ => 0) (plan.logicalPhys stage lane group digit)

def stageValue (stage : ℕ) (m : Cell → R) (slot lane group : ℕ) : ℕ → R :=
  codelets (plan.radix stage) (stageLoad plan mode tables pid stage m slot lane group)

def elementStores (stage : ℕ) (m : Cell → R) (slot lane group digit : ℕ) : List (Store Cell R) :=
  let offset := slot * plan.smemSlotStride
  let value := stageValue plan mode tables codelets pid stage m slot lane group digit
  if stage + 1 = plan.stages then
    mode.store m (plan.currentBatch pid slot) offset
      (outputIndex plan.factors (plan.codelet stage lane group) digit) value
  else
    [⟨plan.destBuffer stage (routeIndex plan.factors stage (plan.codelet stage lane group)
      (plan.lanes (stage + 1)) digit + offset), value⟩]

/- One group: every lane has loaded before any lane stores. -/
def stageStores (stage group : ℕ) (m : Cell → R) : List (Store Cell R) :=
  (List.range (plan.radix stage)).flatMap fun digit => plan.threads.flatMap fun (slot, lane) =>
    if plan.laneMask pid nbatch stage slot lane then
      elementStores plan mode tables codelets pid stage m slot lane group digit
    else []

/- Every store of a stage, each group computed from the same memory. -/
def allStores (stage : ℕ) (m : Cell → R) : List (Store Cell R) :=
  (List.range (plan.groups stage)).flatMap fun group =>
    stageStores plan mode tables codelets pid nbatch stage group m

def runStage (stage : ℕ) (m : Cell → R) : Cell → R :=
  runStores (stageStores plan mode tables codelets pid nbatch stage) (List.range (plan.groups stage)) m

def runStages (m : Cell → R) : Cell → R :=
  (List.range plan.stages).foldl
    (fun m stage => runStage plan mode tables codelets pid nbatch stage m) m

end Program

/- What a block sees when it starts: device memory, and shared memory with unknown contents. -/
def blockCells {R : Type*} (shared : Cell → R) (m : Memory R) : Cell → R
  | .device a => m a
  | c => shared c

def contiguousMode {R : Type*} (plan : LeafPlan) (src dst : Address) : LeafMode R where
  load m batch _ index := m (.device (src.at (batch * plan.length + index)))
  store _ batch _ index value := [⟨.device (dst.at (batch * plan.length + index)), value⟩]

section Launch
variable {R : Type*} [CommRing R] (plan : LeafPlan) (tables : List (ℕ → R))
  (codelets : ℕ → (ℕ → R) → ℕ → R) (src dst : Address) (nbatch : ℕ) (shared : Cell → R)

def leafKernel (pid : ℕ) (m : Memory R) : Memory R :=
  if pid * plan.batchPack ≥ nbatch then m
  else fun a => runStages plan (contiguousMode plan src dst) tables codelets pid nbatch (blockCells shared m)
    (.device a)

/- The stores of the last stage, which are the stores of the block to device memory. -/
def leafOutputStores (pid : ℕ) (m : Cell → R) : List (Store Cell R) :=
  if pid * plan.batchPack ≥ nbatch then []
  else allStores plan (contiguousMode plan src dst) tables codelets pid nbatch plan.last m

def leafGrid : ℕ := ceilDiv nbatch plan.batchPack

end Launch
end FlagFft.Leaf
