import FlagFft.Compiled.Lower
import FlagFft.Compiled.Runs
import FlagFft.Plan.Sessions

/-! From the request to the memory: plans that builders have answered with, whatever they were asked before, are compiled
and called, and the rows of the user become their transforms of the lengths that were asked for. -/
namespace FlagFft.Compiled
open Library.Dft Plan

/- A plan some builder has answered with, and what it is compiled for. -/
structure Order where
  length : ℕ
  node : PlanNode
  direction : Direction
  batch : ℕ

inductive Answered (host : BuilderHost) (length : ℕ) (node : PlanNode) : Prop
  | intro {s s' : BuilderState} {fuel : ℕ} {asked : BuilderCall} {plans : List PlanNode} (reached : ReachedBuilder host s)
      (ample : callFuel asked.length ≤ fuel) (run : asked.run host fuel s = some (.ok plans, s')) (member : node ∈ plans)
      (same : asked.length = length)

structure Order.Lowered (order : Order) (job : Job) : Prop where
  length : job.length = order.length
  direction : job.direction = order.direction
  batch : job.batch = order.batch

section Orders
variable {host : BuilderHost} {choices : Choices} {request : FftRequest} {chunkBatch : (convLength batch : ℕ) → ℕ}
  {orders : List Order}

def lowerOrder (choices : Choices) (request : FftRequest) (chunkBatch : (convLength batch : ℕ) → ℕ) (order : Order) :
    Option Job := do
  let plan ← lower choices request chunkBatch order.node .contiguous order.batch
  some ⟨plan, order.direction, order.batch⟩

theorem answeredPlanned {length : ℕ} {node : PlanNode} (answered : Answered host length node) : WellPlanned length node := by
  obtain ⟨reached, ample, run, member, rfl⟩ := answered
  obtain ⟨outcome, s', here, _, good⟩ := callDelivers _ ample _ (reachedRemembers reached)
  rw [run] at here
  cases here
  exact good _ rfl node member

theorem ordersLowered (device : (portableLeaf request).isSome)
    (answered : ∀ order ∈ orders, Answered host order.length order.node)
    (admitted : ∀ order ∈ orders, Admitted choices request chunkBatch order.node order.batch) :
    ∃ jobs, orders.mapM (lowerOrder choices request chunkBatch) = some jobs ∧ List.Forall₂ Order.Lowered orders jobs ∧
      ∀ job ∈ jobs, job.plan.Sound := by
  induction orders with
  | nil => exact ⟨[], rfl, .nil, fun _ member => nomatch member⟩
  | cons order orders ih =>
    obtain ⟨plan, run, sound, length⟩ := lowerPlanned device (answeredPlanned (answered order List.mem_cons_self)) .contiguous
      order.batch (admitted order List.mem_cons_self)
    obtain ⟨jobs, rest, each, sounds⟩ := ih (fun other member => answered other (List.mem_cons_of_mem _ member))
      fun other member => admitted other (List.mem_cons_of_mem _ member)
    refine ⟨⟨plan, order.direction, order.batch⟩ :: jobs, ?_, .cons ⟨length, rfl, rfl⟩ each,
      List.forall_mem_cons.mpr ⟨sound, sounds⟩⟩
    have first : lowerOrder choices request chunkBatch order = some ⟨plan, order.direction, order.batch⟩ := by
      rw [lowerOrder, run]
      rfl
    rw [List.mapM_cons, first, Option.bind_eq_bind, Option.bind_some, rest]
    rfl

theorem batchesPositive {jobs : List Job} (each : List.Forall₂ Order.Lowered orders jobs)
    (positive : ∀ order ∈ orders, 0 < order.batch) : ∀ job ∈ jobs, 0 < job.batch := by
  induction each with
  | nil => exact fun _ member => nomatch member
  | cons here _ ih =>
    refine List.forall_mem_cons.mpr ⟨?_, ih fun order member => positive order (List.mem_cons_of_mem _ member)⟩
    rw [here.batch]
    exact positive _ List.mem_cons_self

end Orders

def plainChoices : Choices where
  getenv _ := none
  maca1dSinglePolicy := false
  profile := ⟨"legacy", none⟩
  batchPack _ _ := 1
  laneFloor _ _ := 1
  fourStepPack _ _ := 1
  butterflyBlock _ _ := 128
  reduction _ := .tiles
  batchPackPositive _ _ := Nat.one_pos
  fourStepPackPositive _ _ := Nat.one_pos
  butterflyBlockPositive _ _ := Nat.succ_pos 127

end FlagFft.Compiled
