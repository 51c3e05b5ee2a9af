import FlagFft.TwoDim.Passes
import FlagFft.Graph
import Mathlib.Data.Nat.Cast.Basic
import Mathlib.Algebra.CharZero.Defs
import Mathlib.Algebra.BigOperators.Ring.Finset

/-! The complex two-dimensional nodes, with the graph they build around their passes. -/
namespace FlagFft.TwoDim
open Library.Dft Library.Indexing Library.Capture FlagFft.Graph

section Children
variable {R : Type*}

/- A compiled child seen from memory: all its launches, one after another. -/
def asChild (child : DeviceChild R) : Child R := fun src dst batch m => .ok (runAll (child src dst batch) m)

/- The strided form of a child: it transforms the columns of (n0, n1) blocks. -/
def ComputesColumns (child : DeviceChild R) (scratch : Address → Prop) (n0 n1 : ℕ) (f : (ℕ → R) → ℕ → R) : Prop :=
  ∀ src dst batch, Compatible src dst → (∀ i, ¬ scratch (src.at i)) → (∀ i, ¬ scratch (dst.at i)) →
    LayoutRun (asChild child src dst (batch * n1)) scratch (columnLayout src n0 n1) (columnLayout dst n0 n1) n0
      (batch * n1) f

theorem totalMap {run : Memory R → Memory R} {scratch : Address → Prop} {src dst : Layout} {nOut rows : ℕ}
    {f : (ℕ → R) → ℕ → R} (ok : LayoutRun (fun m => .ok (run m)) scratch src dst nOut rows f) :
    LayoutMap run scratch src dst nOut rows f := by
  obtain ⟨total, returns, map⟩ := ok
  have same : run = total := funext fun m => Except.ok.inj (returns m)
  rw [same]
  exact map

theorem runAllCons {step : SeqStep R} {rest : List (SeqStep R)} :
    runAll (sequenceOps (step :: rest)) = fun m : Memory R => runAll (sequenceOps rest) (runAll step.ops m) := by
  funext m
  unfold runAll sequenceOps
  rw [List.flatMap_cons, List.foldl_append]

theorem runAllNil : runAll (sequenceOps ([] : List (SeqStep R))) = fun m => m := rfl

end Children

section Nodes
variable {R : Type*} [CommRing R] {batch : ℕ} {child : Address → Prop} {w0 w1 : R} {input output : Address}

theorem dftRowLocal {n : ℕ} {w : R} : RowLocal n n (dft n w) := fun _ _ same _ _ => dftCongr same

def Raw2DNode.scratch (node : Raw2DNode R) (child : Address → Prop) (a : Address) : Prop :=
  a.buffer = node.temp1.buffer ∨ a.buffer = node.temp2.buffer ∨ child a

structure Raw2DNode.Ok (node : Raw2DNode R) (child : Address → Prop) (w0 w1 : R) (input output : Address) : Prop where
  row : (asChild node.rowFft).Computes child node.n1 (dft node.n1 w1)
  col : (asChild node.colFft).Computes child node.n0 (dft node.n0 w0)
  transposeFwd : Transposes node.transposeFwd (node.n0 * node.n1) (transposeRow node.n0 node.n1)
  transposeInv : Transposes node.transposeInv (node.n0 * node.n1) (transposeRow node.n1 node.n0)
  temps : node.temp1.buffer ≠ node.temp2.buffer
  temp1 : ∀ i, ¬ child (node.temp1.at i)
  temp2 : ∀ i, ¬ child (node.temp2.at i)
  input : ∀ i, ¬ Raw2DNode.scratch node child (input.at i)
  output : ∀ i, ¬ Raw2DNode.scratch node child (output.at i)

theorem Raw2DNode.transformMap {node : Raw2DNode R} (ok : Raw2DNode.Ok node child w0 w1 input output) :
    RowMap ((node.replayed batch).transform input output) (Raw2DNode.scratch node child) input output
      (node.n0 * node.n1) (node.n0 * node.n1) batch (dft2 node.n0 node.n1 w0 w1) := by
  have inputApart : input.buffer ≠ node.temp1.buffer := fun same => ok.input 0 (.inl same)
  have outputApart : node.temp1.buffer ≠ output.buffer := fun same => ok.output 0 (.inl same.symm)
  have sub : ∀ a, child a → Raw2DNode.scratch node child a := fun _ inner => .inr (.inr inner)
  have rows := blockRowsRun ((ok.row input node.temp1 (batch * node.n0) (.inr inputApart)
    (fun i inner => ok.input i (sub _ inner)) ok.temp1).mono sub)
  have fwd := (ok.transposeFwd node.temp1 node.temp2 batch ok.temps).mono
    (fun a absurd => (absurd.elim : Raw2DNode.scratch node child a))
  have cols := blockRowsRun ((ok.col node.temp2 node.temp1 (batch * node.n1) (.inr ok.temps.symm) ok.temp2 ok.temp1).mono
    sub)
  have inv := (ok.transposeInv node.temp1 output batch outputApart).mono
    (fun a absurd => (absurd.elim : Raw2DNode.scratch node child a))
  have turnLocal : RowLocal (node.n0 * node.n1) (node.n0 * node.n1) (transposeRow (R := R) node.n0 node.n1) := by
    have turned : RowLocal (node.n0 * node.n1) (node.n1 * node.n0) (transposeRow (R := R) node.n0 node.n1) :=
      transposeLocal
    rwa [Nat.mul_comm node.n1] at turned
  have backLocal : RowLocal (node.n0 * node.n1) (node.n0 * node.n1) (transposeRow (R := R) node.n1 node.n0) := by
    have turned : RowLocal (node.n1 * node.n0) (node.n0 * node.n1) (transposeRow (R := R) node.n1 node.n0) :=
      transposeLocal
    rwa [Nat.mul_comm node.n1] at turned
  have colsLocal : RowLocal (node.n1 * node.n0) (node.n1 * node.n0) (blockRows node.n0 node.n0 (dft node.n0 w0)) :=
    blockRowsLocal dftRowLocal
  rw [Nat.mul_comm node.n1] at cols colsLocal
  have all := (((totalMap rows).comp fwd turnLocal fun _ _ _ _ => .inl rfl).comp (totalMap cols) colsLocal
    fun _ _ _ _ => .inr (.inl rfl)).comp inv backLocal fun _ _ _ _ => .inl rfl
  unfold Replayed.transform Raw2DNode.replayed Raw2DNode.passes
  simp only [List.map_cons, List.map_nil, runAllCons, runAllNil, Pass.between]
  refine all.congr fun x o ho => ?_
  have positive : 0 < node.n1 := Nat.pos_of_mul_pos_left (Nat.zero_lt_of_lt ho)
  rw [transposedRows dftRowLocal _ ho, columnsOfRows w0 w1 x le_rfl ho, Nat.mul_comm (o / node.n1), Nat.div_add_mod]

def Raw2DRCNode.scratch (node : Raw2DRCNode R) (child : Address → Prop) (a : Address) : Prop :=
  a.buffer = node.temp1.buffer ∨ child a

structure Raw2DRCNode.Ok (node : Raw2DRCNode R) (child : Address → Prop) (w0 w1 : R) (input output : Address) :
    Prop where
  row : (asChild node.rowFft).Computes child node.n1 (dft node.n1 w1)
  col : ComputesColumns node.colFft child node.n0 node.n1 (dft node.n0 w0)
  temp1 : ∀ i, ¬ child (node.temp1.at i)
  input : ∀ i, ¬ Raw2DRCNode.scratch node child (input.at i)
  output : ∀ i, ¬ Raw2DRCNode.scratch node child (output.at i)

theorem Raw2DRCNode.transformMap {node : Raw2DRCNode R} (ok : Raw2DRCNode.Ok node child w0 w1 input output) :
    RowMap ((node.replayed batch).transform input output) (Raw2DRCNode.scratch node child) input output
      (node.n0 * node.n1) (node.n0 * node.n1) batch (dft2 node.n0 node.n1 w0 w1) := by
  have inputApart : input.buffer ≠ node.temp1.buffer := fun same => ok.input 0 (.inl same)
  have outputApart : node.temp1.buffer ≠ output.buffer := fun same => ok.output 0 (.inl same.symm)
  have sub : ∀ a, child a → Raw2DRCNode.scratch node child a := fun _ inner => .inr inner
  have rows := blockRowsRun ((ok.row input node.temp1 (batch * node.n0) (.inr inputApart)
    (fun i inner => ok.input i (sub _ inner)) ok.temp1).mono sub)
  have cols := columnsRun ((ok.col node.temp1 output batch (.inr outputApart) ok.temp1
    (fun i inner => ok.output i (sub _ inner))).mono sub)
  have all := (totalMap rows).comp (totalMap cols) (columnsLocal dftRowLocal) fun _ _ _ _ => .inl rfl
  unfold Replayed.transform Raw2DRCNode.replayed Raw2DRCNode.passes
  simp only [List.map_cons, List.map_nil, runAllCons, runAllNil, Pass.between]
  refine all.congr fun x o ho => ?_
  rw [columnsOfRows w0 w1 x le_rfl ho, Nat.mul_comm (o / node.n1), Nat.div_add_mod]

end Nodes

section Calls
variable {R : Type*} (node : Replayed R) (state : NodeState R) (input output : Address) {driver : Driver}

/- Every child execution and kernel launch succeeds, as does the launch of a stored graph; the driver
may still refuse to build one. -/
structure Answers (driver : Driver) : Prop where
  direct : ∀ i, driver.direct i = .ok
  captured : ∀ i, driver.captured i = .ok
  replays : driver.replays = true

theorem outcomeOk {steps : List (SeqStep R)} {replies : ℕ → Reply} (ok : ∀ i, replies i = .ok) :
    outcome steps replies = .success := by
  induction steps generalizing replies with
  | nil => rfl
  | cons step rest ih =>
    unfold outcome
    rw [ok 0]
    exact ih fun i => ok (i + 1)

theorem captureSucceeds (answers : Answers driver) : (node.captureGraph input output driver state).2 = .ok () := by
  unfold Replayed.captureGraph
  rw [runSequenceAll _ _ _ (outcomeOk answers.captured)]
  by_cases begun : driver.begins ∧ state.stream.capture = none
  · rw [if_pos begun]
    cases ends : driver.ends with
    | throws still => rfl
    | ok => cases checked : node.checked <;> cases launches : driver.launches <;> rfl
  · rw [if_neg begun]

theorem directSucceeds (answers : Answers driver) : (node.direct input output driver state).2 = .ok () := by
  unfold Replayed.direct
  rw [runSequenceAll _ _ _ (outcomeOk answers.direct)]
  by_cases capture : node.enabled ∧ state.graph.isNone ∧ ¬ state.graphFailed
  · simp only [if_pos capture]
    exact captureSucceeds node _ input output answers
  · simp only [if_neg capture]

theorem executeSucceeds (answers : Answers driver) : (node.execute input output driver state).2 = .ok () := by
  unfold Replayed.execute
  cases stored : state.graph with
  | none => exact directSucceeds node state input output answers
  | some ops =>
    by_cases same : state.graphInput = input ∧ state.graphOutput = output
    · simp only [if_pos same, answers.replays, if_true]
    · simp only [if_neg same]
      exact directSucceeds node state input output answers

/- A call in a given state, seen from memory. -/
def runCall (node : Replayed R) (state : NodeState R) (input output : Address) (driver : Driver) (m : Memory R) :
    Except Failure (Memory R) :=
  let (next, result) := node.execute input output driver { state with stream := { state.stream with memory := m } }
  result.map fun _ => next.stream.memory

variable {node state input output}

/- The call runs the transform once, or twice if it captures and launches. -/
theorem runCallCases (faithful : node.Faithful state) (idle : state.stream.capture = none) (answers : Answers driver)
    (m : Memory R) :
    (¬ node.Launches input output driver state →
      runCall node state input output driver m = .ok (node.transform input output m)) ∧
    (node.Launches input output driver state →
      runCall node state input output driver m = .ok (node.transform input output (node.transform input output m))) := by
  have succeeds := executeSucceeds node { state with stream := { state.stream with memory := m } } input output answers
  constructor
  · intro once
    have cases := Replayed.stepCases node state ⟨fun _ => m, input, output, driver⟩ idle
    have memory : (node.step ⟨fun _ => m, input, output, driver⟩ state).1.stream.memory =
        node.transform input output m := by
      rcases cases with replay | direct | launched
      · obtain ⟨ops, stored, sameInput, sameOutput, _, ran⟩ := replay
        rw [ran succeeds, faithful ops stored, sameInput, sameOutput]
        rfl
      · exact direct.2 succeeds
      · exact absurd launched.1 once
    unfold runCall
    exact (congrArg (Except.map _) succeeds).trans (congrArg Except.ok memory)
  · intro launched
    have twice := Replayed.launchedTwice node input output driver
      { state with stream := { state.stream with memory := m } } ⟨launched.enabled, launched.first, launched.usable,
        launched.direct, launched.begins, launched.ends, launched.launches, launched.captured⟩ idle
      (outcomeOk answers.captured)
    unfold runCall
    rw [twice]
    rfl

variable {scratch : Address → Prop} {N batch : ℕ} {f : (ℕ → R) → ℕ → R}

theorem onceRun (map : RowMap (node.transform input output) scratch input output N N batch f)
    (faithful : node.Faithful state) (idle : state.stream.capture = none) (answers : Answers driver)
    (once : ¬ node.Launches input output driver state) :
    RowRun (runCall node state input output driver) scratch input output N N batch f :=
  ⟨_, fun m => (runCallCases faithful idle answers m).1 once, map⟩

/- Between two buffers the second run finds the same input. -/
theorem twiceRunApart (map : RowMap (node.transform input output) scratch input output N N batch f)
    (faithful : node.Faithful state) (idle : state.stream.capture = none) (answers : Answers driver)
    (launched : node.Launches input output driver state) (rowLocal : RowLocal N N f)
    (source : ∀ i, ¬ scratch (input.at i)) (apart : input.buffer ≠ output.buffer) :
    RowRun (runCall node state input output driver) scratch input output N N batch f := by
  refine ⟨_, fun m => (runCallCases faithful idle answers m).2 launched, ⟨fun m b hb k hk => ?_, fun m a kept outside => ?_⟩⟩
  · rw [map.writes _ b hb k hk]
    exact rowLocal _ _ (fun j _ => map.frame m _ (source _) fun _ _ _ _ => Address.atApart apart _ _) k hk
  · rw [map.frame _ a kept outside, map.frame m a kept outside]

/- In place the second run transforms the result of the first. -/
theorem twiceRunInPlace (map : RowMap (node.transform input input) scratch input input N N batch f)
    (faithful : node.Faithful state) (idle : state.stream.capture = none) (answers : Answers driver)
    (launched : node.Launches input input driver state) (rowLocal : RowLocal N N f) :
    RowRun (runCall node state input input driver) scratch input input N N batch (fun x => f (f x)) := by
  refine ⟨_, fun m => (runCallCases faithful idle answers m).2 launched, ⟨fun m b hb k hk => ?_, fun m a kept outside => ?_⟩⟩
  · rw [map.writes _ b hb k hk]
    exact rowLocal _ _ (fun j hj => map.writes m b hb j hj) k hk
  · rw [map.frame _ a kept outside, map.frame m a kept outside]

/- Two row functions of one run agree on every row. -/
theorem rowsAgree {op : Memory R → Except Failure (Memory R)} {f g : (ℕ → R) → ℕ → R} {b k : ℕ} {src dst : Address}
    (one : RowRun op scratch src dst N N batch f) (two : RowRun op scratch src dst N N batch g) (m : Memory R)
    (hb : b < batch) (hk : k < N) : f (fun j => m (src.row N b j)) k = g (fun j => m (src.row N b j)) k := by
  obtain ⟨run, returns, map⟩ := one
  obtain ⟨run', returns', map'⟩ := two
  have same : run m = run' m := Except.ok.inj ((returns m).symm.trans (returns' m))
  rw [← map.writes m b hb k hk, same, map'.writes m b hb k hk]

end Calls

section Impulse
variable {R : Type*} [CommRing R] {n0 n1 : ℕ} {w0 w1 : R}

/- The transform of an impulse is flat, and the transform of that sums its size up. -/
theorem dft2Impulse {x : ℕ → R} (impulse : ∀ j, x j = if j = 0 then 1 else 0) (rows : 0 < n0) (cols : 0 < n1) (o : ℕ) :
    dft2 n0 n1 w0 w1 x o = 1 := by
  unfold dft2
  rw [Finset.sum_eq_single 0, Finset.sum_eq_single 0]
  · simp [impulse]
  · intro j1 _ later
    simp [impulse, later]
  · intro absent
    exact absurd (Finset.mem_range.mpr cols) absent
  · intro j0 _ later
    refine Finset.sum_eq_zero fun j1 _ => ?_
    have away : ¬ j0 * n1 + j1 = 0 := by
      have := Nat.mul_pos (Nat.pos_of_ne_zero later) cols
      omega
    rw [impulse, if_neg away, zero_mul]
  · intro absent
    exact absurd (Finset.mem_range.mpr rows) absent

theorem dft2Flat {x : ℕ → R} (flat : ∀ j, x j = 1) : dft2 n0 n1 w0 w1 x 0 = (n0 * n1 : ℕ) := by
  unfold dft2
  simp [flat]

theorem dft2Single {x : ℕ → R} {o : ℕ} (single : n0 * n1 ≤ 1) (ho : o < n0 * n1) : dft2 n0 n1 w0 w1 x o = x o := by
  have size : n0 * n1 = 1 := by omega
  obtain ⟨rfl, rfl⟩ := mul_eq_one.mp size
  rw [show o = 0 by omega]
  simp [dft2]

end Impulse

section Plane
variable {R : Type*} [CommRing R] [CharZero R] {node : Replayed R} {state : NodeState R} {input output : Address}
  {driver : Driver} {scratch : Address → Prop} {n0 n1 batch : ℕ} {w0 w1 : R}

/- One call is the two-dimensional transform unless it launches its graph in place on more than one point. -/
theorem callIff (map : RowMap (node.transform input output) scratch input output (n0 * n1) (n0 * n1) batch
      (dft2 n0 n1 w0 w1)) (compatible : Compatible input output) (source : ∀ i, ¬ scratch (input.at i))
    (faithful : node.Faithful state) (idle : state.stream.capture = none) (answers : Answers driver) :
    RowRun (runCall node state input output driver) scratch input output (n0 * n1) (n0 * n1) batch
        (dft2 n0 n1 w0 w1) ↔
      ¬ (node.Launches input output driver state ∧ input = output ∧ 0 < batch ∧ 1 < n0 * n1) := by
  have rowLocal : RowLocal (n0 * n1) (n0 * n1) (dft2 n0 n1 w0 w1) := fun _ _ same _ _ => dft2Congr same
  by_cases launched : node.Launches input output driver state
  · cases compatible with
    | inr apart =>
      have fine := twiceRunApart map faithful idle answers launched rowLocal source apart
      exact ⟨fun _ bad => apart (congrArg Address.buffer bad.2.1), fun _ => fine⟩
    | inl same =>
      subst same
      have twice := twiceRunInPlace map faithful idle answers launched rowLocal
      constructor
      · intro once bad
        obtain ⟨_, _, rows, points⟩ := bad
        have sizes : 0 < n0 ∧ 0 < n1 := by
          have area : 0 < n0 * n1 := by omega
          exact ⟨Nat.pos_of_mul_pos_right area, Nat.pos_of_mul_pos_left area⟩
        have agree := rowsAgree once twice (fun a => if a = input.at 0 then 1 else 0) rows (show 0 < n0 * n1 by omega)
        have impulse : ∀ j, (if input.row (n0 * n1) 0 j = input.at 0 then (1 : R) else 0) = if j = 0 then 1 else 0 := by
          intro j
          simp [Address.row, Address.atInj]
        rw [dft2Impulse impulse sizes.1 sizes.2, dft2Flat fun j => dft2Impulse impulse sizes.1 sizes.2 j] at agree
        have one : n0 * n1 = 1 := by exact_mod_cast agree.symm
        omega
      · intro fine
        by_cases points : n0 * n1 ≤ 1
        · exact twice.congr fun x k hk => dft2Single points hk
        · obtain ⟨run, returns, ran⟩ := twice
          refine ⟨run, returns, ⟨fun m b hb => ?_, ran.frame⟩⟩
          exact absurd ⟨launched, rfl, Nat.zero_lt_of_lt hb, by omega⟩ fine
  · exact ⟨fun _ bad => launched bad.1, fun _ => onceRun map faithful idle answers launched⟩

end Plane
end FlagFft.TwoDim
