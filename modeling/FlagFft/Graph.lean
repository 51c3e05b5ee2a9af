import FlagFft.Device
import FlagFft.Library.Capture

/-! Nodes that capture their launches into a graph and replay it for stable pointers. The driver may
refuse any call, and a child may stop after any number of its launches. -/
namespace FlagFft.Graph
open Library.Capture

abbrev DeviceOp (R : Type*) := Op (Memory R)

/- The launches a compiled child issues for a batch of rows between two buffers. -/
abbrev DeviceChild (R : Type*) := Address → Address → ℕ → List (DeviceOp R)

/- One kernel launch: source, destination and batch. -/
abbrev DeviceKernel (R : Type*) := Address → Address → ℕ → DeviceOp R

inductive Ended where
  | success
  | failed (code : Failure)
  | thrown
  deriving DecidableEq, Repr

/- How one child execution or kernel launch goes. -/
inductive Reply where
  | ok
  | stops (issued : ℕ) (code : Failure)
  deriving DecidableEq, Repr

/- Children catch their exceptions and return a result; a kernel launch throws. -/
inductive SeqStep (R : Type*) where
  | child (ops : List (DeviceOp R))
  | kernel (op : DeviceOp R)

variable {R : Type*}

def SeqStep.ops : SeqStep R → List (DeviceOp R)
  | .child ops => ops
  | .kernel op => [op]

def SeqStep.perform (step : SeqStep R) (reply : Reply) (s : Stream (Memory R)) : Stream (Memory R) × Ended :=
  match step, reply with
  | .child ops, .ok => (s.issueAll ops, .success)
  | .child ops, .stops issued code => (s.issueAll (ops.take issued), .failed code)
  | .kernel op, .ok => (s.issue op, .success)
  | .kernel _, .stops _ _ => (s, .thrown)

def runSequence : List (SeqStep R) → (ℕ → Reply) → Stream (Memory R) → Stream (Memory R) × Ended
  | [], _, s => (s, .success)
  | step :: rest, replies, s =>
    match step.perform (replies 0) s with
    | (s, .success) => runSequence rest (fun i => replies (i + 1)) s
    | (s, ended) => (s, ended)

def sequenceOps (steps : List (SeqStep R)) : List (DeviceOp R) := steps.flatMap SeqStep.ops

/- How a sequence ends, from the replies alone. -/
def outcome : List (SeqStep R) → (ℕ → Reply) → Ended
  | [], _ => .success
  | step :: rest, replies =>
    match step, replies 0 with
    | _, .ok => outcome rest fun i => replies (i + 1)
    | .child _, .stops _ code => .failed code
    | .kernel _, .stops _ _ => .thrown

inductive EndCapture where
  | ok
  | throws (stillCapturing : Bool)
  deriving DecidableEq, Repr

/- Every answer of the driver during one call. -/
structure Driver where
  replays : Bool
  direct : ℕ → Reply
  begins : Bool
  captured : ℕ → Reply
  ends : EndCapture
  launches : Bool

structure NodeState (R : Type*) where
  stream : Stream (Memory R)
  graph : Option (List (DeviceOp R))
  graphInput : Address
  graphOutput : Address
  graphFailed : Bool

/- What the graph-enabled nodes differ in: whether graphs are enabled, whether the result of the
captured execution is looked at, and what they issue. -/
structure Replayed (R : Type*) where
  enabled : Bool
  checked : Bool
  steps : Address → Address → List (SeqStep R)

namespace Replayed
variable (node : Replayed R) (input output : Address) (driver : Driver)

/- The attempt to build a graph once the direct run has succeeded. -/
def captureGraph (state : NodeState R) : NodeState R × Except Failure Unit :=
  if driver.begins ∧ state.stream.capture = none then
    match runSequence (node.steps input output) driver.captured { state.stream with capture := some [] } with
    -- the exception skips end_capture
    | (stream, .thrown) => ({ state with stream, graphFailed := true }, .ok ())
    | (stream, ended) =>
      match driver.ends with
      | .throws stillCapturing =>
        let capture := if stillCapturing then stream.capture else none
        ({ state with stream := { stream with capture }, graphFailed := true }, .ok ())
      | .ok =>
        let ops := stream.capture.getD []
        let stream := { stream with capture := none }
        match node.checked, ended with
        | true, .failed code => ({ state with stream }, .error code)
        | _, _ =>
          if driver.launches then
            ({ state with
                stream := stream.issueAll ops
                graph := some ops
                graphInput := input
                graphOutput := output }, .ok ())
          else ({ state with stream, graphFailed := true }, .ok ())
  else ({ state with graphFailed := true }, .ok ())

def direct (state : NodeState R) : NodeState R × Except Failure Unit :=
  match runSequence (node.steps input output) driver.direct state.stream with
  | (stream, .failed code) => ({ state with stream }, .error code)
  | (stream, .thrown) => ({ state with stream }, .error .execFailed)
  | (stream, .success) =>
    if node.enabled ∧ state.graph.isNone ∧ ¬ state.graphFailed then
      node.captureGraph input output driver { state with stream }
    else ({ state with stream }, .ok ())

def execute (state : NodeState R) : NodeState R × Except Failure Unit :=
  match state.graph with
  | some ops =>
    if state.graphInput = input ∧ state.graphOutput = output then
      if driver.replays then ({ state with stream := state.stream.issueAll ops }, .ok ())
      else (state, .error .execFailed)
    else node.direct input output driver state
  | none => node.direct input output driver state

end Replayed

/- Wraps any compiled node. -/
structure RawGraphNode (R : Type*) where
  inner : DeviceChild R

def RawGraphNode.replayed (node : RawGraphNode R) (batch : ℕ) : Replayed R where
  enabled := true
  checked := true
  steps input output := [.child (node.inner input output batch)]

structure Raw2DNode (R : Type*) where
  n0 : ℕ
  n1 : ℕ
  rowFft : DeviceChild R
  colFft : DeviceChild R
  transposeFwd : DeviceKernel R
  transposeInv : DeviceKernel R
  temp1 : Address
  temp2 : Address
  graphEnabled : Bool

def Raw2DNode.passes (node : Raw2DNode R) (batch : ℕ) (input output : Address) : List (Pass (SeqStep R)) :=
  [.between (fun src dst => .child (node.rowFft src dst (batch * node.n0))) input node.temp1,
    .between (fun src dst => .kernel (node.transposeFwd src dst batch)) node.temp1 node.temp2,
    .between (fun src dst => .child (node.colFft src dst (batch * node.n1))) node.temp2 node.temp1,
    .between (fun src dst => .kernel (node.transposeInv src dst batch)) node.temp1 output]

def Raw2DNode.replayed (node : Raw2DNode R) (batch : ℕ) : Replayed R where
  enabled := node.graphEnabled
  checked := false
  steps input output := (node.passes batch input output).map Pass.work

structure Raw2DRCNode (R : Type*) where
  n0 : ℕ
  n1 : ℕ
  rowFft : DeviceChild R
  colFft : DeviceChild R
  temp1 : Address
  graphEnabled : Bool

def Raw2DRCNode.passes (node : Raw2DRCNode R) (batch : ℕ) (input output : Address) : List (Pass (SeqStep R)) :=
  [.between (fun src dst => .child (node.rowFft src dst (batch * node.n0))) input node.temp1,
    .between (fun src dst => .child (node.colFft src dst (batch * node.n1))) node.temp1 output]

def Raw2DRCNode.replayed (node : Raw2DRCNode R) (batch : ℕ) : Replayed R where
  enabled := node.graphEnabled
  checked := false
  steps input output := (node.passes batch input output).map Pass.work

inductive GraphEnabled (R : Type*) where
  | rawGraph (node : RawGraphNode R)
  | raw2D (node : Raw2DNode R)
  | raw2DRC (node : Raw2DRCNode R)

def GraphEnabled.replayed (batch : ℕ) : GraphEnabled R → Replayed R
  | .rawGraph node => node.replayed batch
  | .raw2D node => node.replayed batch
  | .raw2DRC node => node.replayed batch

section Sequence
variable (steps : List (SeqStep R)) (replies : ℕ → Reply) (s : Stream (Memory R))

/- Whatever happens, a sequence issues some launches in order; if it succeeds, all of them. -/
theorem runSequenceIssues : ∃ ops, runSequence steps replies s = (s.issueAll ops, outcome steps replies) ∧
    (outcome steps replies = .success → ops = sequenceOps steps) := by
  induction steps generalizing replies s with
  | nil => exact ⟨[], rfl, fun _ => rfl⟩
  | cons step rest ih =>
    unfold runSequence outcome
    cases reply : replies 0 with
    | ok =>
      have performed : step.perform .ok s = (s.issueAll step.ops, .success) := by cases step <;> rfl
      obtain ⟨ops, ran, all⟩ := ih (fun i => replies (i + 1)) (s.issueAll step.ops)
      simp only [performed, ran]
      exact ⟨step.ops ++ ops, by rw [Stream.issueAllAppend], fun success => by rw [all success]; rfl⟩
    | stops issued code =>
      cases step with
      | child ops => exact ⟨ops.take issued, rfl, fun success => nomatch success⟩
      | kernel op => exact ⟨[], rfl, fun success => nomatch success⟩

theorem runSequenceAll (success : outcome steps replies = .success) :
    runSequence steps replies s = (s.issueAll (sequenceOps steps), .success) := by
  obtain ⟨ops, ran, all⟩ := runSequenceIssues steps replies s
  rw [ran, all success, success]

end Sequence

/- One call: what other work did to memory since the last one, the pointers and the driver's answers. -/
structure Call (R : Type*) where
  others : DeviceOp R
  input : Address
  output : Address
  driver : Driver

def Call.arrive (call : Call R) (state : NodeState R) : NodeState R :=
  { state with stream := { state.stream with memory := call.others state.stream.memory } }

def fresh (memory : Memory R) : NodeState R where
  stream := ⟨memory, none⟩
  graph := none
  graphInput := ⟨0, 0⟩
  graphOutput := ⟨0, 0⟩
  graphFailed := false

namespace Replayed
variable (node : Replayed R)

def step (call : Call R) (state : NodeState R) : NodeState R × Except Failure Unit :=
  node.execute call.input call.output call.driver (call.arrive state)

/- One execution of the inner transform. -/
def transform (input output : Address) : DeviceOp R := runAll (sequenceOps (node.steps input output))

def Transparent (call : Call R) (state : NodeState R) : Prop :=
  (node.step call state).2 = .ok () → (node.step call state).1.stream.memory =
    node.transform call.input call.output (call.others state.stream.memory)

/- Of every call of a run, in the state it finds. -/
def Along (P : Call R → NodeState R → Prop) : List (Call R) → NodeState R → Prop
  | [], _ => True
  | call :: rest, state => P call state ∧ Along P rest (node.step call state).1

/- The call runs directly, and then captures a graph and launches it as well. -/
structure Launches (input output : Address) (driver : Driver) (state : NodeState R) : Prop where
  enabled : node.enabled = true
  first : state.graph = none
  usable : state.graphFailed = false
  direct : outcome (node.steps input output) driver.direct = .success
  begins : driver.begins = true
  ends : driver.ends = .ok
  launches : driver.launches = true
  captured : outcome (node.steps input output) driver.captured = .success ∨
    node.checked = false ∧ ∃ code, outcome (node.steps input output) driver.captured = .failed code

/- The state after a launched graph that holds the whole execution: it has run twice. -/
def launchedState (input output : Address) (state : NodeState R) : NodeState R :=
  ⟨⟨node.transform input output (node.transform input output state.stream.memory), none⟩,
    some (sequenceOps (node.steps input output)), input, output, state.graphFailed⟩

/- No capture was left open on the stream, and a call that also launches its graph writes nothing
that it reads and has all of its launches in the graph. -/
structure Meets (footprint : ∀ input output, Footprint (node.transform input output)) (call : Call R)
    (state : NodeState R) : Prop where
  idle : state.stream.capture = none
  launched : node.Launches call.input call.output call.driver state → (footprint call.input call.output).Apart ∧
    outcome (node.steps call.input call.output) call.driver.captured = .success

/- The stored graph holds one whole execution for the stored pointers. -/
def Faithful (state : NodeState R) : Prop :=
  ∀ ops, state.graph = some ops → ops = sequenceOps (node.steps state.graphInput state.graphOutput)

end Replayed

/- The next state stores the same graph, or none still. -/
structure SameGraph (state next : NodeState R) : Prop where
  graph : next.graph = state.graph
  input : next.graphInput = state.graphInput
  output : next.graphOutput = state.graphOutput

namespace Replayed
variable (node : Replayed R) (input output : Address) (driver : Driver) (state : NodeState R) (call : Call R)

/- Either nothing was launched and memory is as the direct run left it, or the graph was launched. -/
theorem captureCases (enabled : node.enabled = true) (first : state.graph = none) (usable : state.graphFailed = false)
    (direct : outcome (node.steps input output) driver.direct = .success) {m : Memory R}
    (ran : state.stream = ⟨node.transform input output m, none⟩) :
    (SameGraph state (node.captureGraph input output driver state).1 ∧
      (node.captureGraph input output driver state).1.stream.memory = node.transform input output m) ∨
    (node.Launches input output driver state ∧
      (outcome (node.steps input output) driver.captured = .success → node.captureGraph input output driver state =
        (node.launchedState input output { state with stream := ⟨m, none⟩ }, .ok ()))) := by
  obtain ⟨ops, recorded, all⟩ := runSequenceIssues (node.steps input output) driver.captured
    { state.stream with capture := some [] }
  rw [Stream.issueAllRecords rfl, List.nil_append] at recorded
  have memory : state.stream.memory = node.transform input output m := by rw [ran]
  unfold captureGraph
  by_cases begun : driver.begins ∧ state.stream.capture = none
  · rw [if_pos begun, recorded]
    cases ended : outcome (node.steps input output) driver.captured with
    | thrown => exact .inl ⟨⟨rfl, rfl, rfl⟩, memory⟩
    | success =>
      cases ends : driver.ends with
      | throws still => exact .inl ⟨⟨rfl, rfl, rfl⟩, memory⟩
      | ok =>
        cases launches : driver.launches with
        | false => cases checked : node.checked <;> exact .inl ⟨⟨rfl, rfl, rfl⟩, memory⟩
        | true =>
          refine .inr ⟨⟨enabled, first, usable, direct, begun.1, ends, launches, .inl ended⟩, fun _ => ?_⟩
          cases all ended
          cases checked : node.checked <;> simp [Stream.issueAllRuns, launchedState, memory, transform]
    | failed code =>
      cases ends : driver.ends with
      | throws still => exact .inl ⟨⟨rfl, rfl, rfl⟩, memory⟩
      | ok =>
        cases checked : node.checked with
        | true => exact .inl ⟨⟨rfl, rfl, rfl⟩, memory⟩
        | false =>
          cases launches : driver.launches with
          | false => exact .inl ⟨⟨rfl, rfl, rfl⟩, memory⟩
          | true => exact .inr ⟨⟨enabled, first, usable, direct, begun.1, ends, launches, .inr ⟨checked, code, ended⟩⟩,
              fun success => nomatch success⟩
  · rw [if_neg begun]
    exact .inl ⟨⟨rfl, rfl, rfl⟩, memory⟩

/- The direct run: it fails, or leaves the transform in memory and nothing else, or a launch follows. -/
theorem directCases (idle : state.stream.capture = none) :
    (SameGraph state (node.direct input output driver state).1 ∧
      ((node.direct input output driver state).2 = .ok () →
        (node.direct input output driver state).1.stream.memory = node.transform input output state.stream.memory)) ∨
    (node.Launches input output driver state ∧
      (outcome (node.steps input output) driver.captured = .success →
        node.direct input output driver state = (node.launchedState input output state, .ok ()))) := by
  obtain ⟨ops, ran, _⟩ := runSequenceIssues (node.steps input output) driver.direct state.stream
  unfold direct
  cases ended : outcome (node.steps input output) driver.direct with
  | thrown =>
    rw [ran, ended]
    exact .inl ⟨⟨rfl, rfl, rfl⟩, fun absurd => nomatch absurd⟩
  | failed code =>
    rw [ran, ended]
    exact .inl ⟨⟨rfl, rfl, rfl⟩, fun absurd => nomatch absurd⟩
  | success =>
    rw [runSequenceAll _ _ _ ended, Stream.issueAllRuns idle]
    by_cases capture : node.enabled ∧ state.graph.isNone ∧ ¬ state.graphFailed
    · simp only [if_pos capture]
      have first : state.graph = none := Option.isNone_iff_eq_none.mp capture.2.1
      have usable : state.graphFailed = false := Bool.eq_false_of_not_eq_true capture.2.2
      cases captureCases node input output driver
        { state with stream := ⟨node.transform input output state.stream.memory, none⟩ }
        capture.1 first usable ended rfl with
      | inl kept => exact .inl ⟨⟨kept.1.graph, kept.1.input, kept.1.output⟩, fun _ => kept.2⟩
      | inr launched =>
        refine .inr ⟨?_, launched.2⟩
        cases launched.1
        constructor <;> assumption
    · simp only [if_neg capture]
      exact .inl ⟨⟨rfl, rfl, rfl⟩, fun _ => rfl⟩

/- Everything a call on an idle stream can do. -/
theorem stepCases (idle : state.stream.capture = none) :
    (∃ ops, state.graph = some ops ∧ state.graphInput = call.input ∧ state.graphOutput = call.output ∧
      SameGraph state (node.step call state).1 ∧ ((node.step call state).2 = .ok () →
        (node.step call state).1.stream.memory = runAll ops (call.others state.stream.memory))) ∨
    (SameGraph state (node.step call state).1 ∧ ((node.step call state).2 = .ok () →
      (node.step call state).1.stream.memory =
        node.transform call.input call.output (call.others state.stream.memory))) ∨
    (node.Launches call.input call.output call.driver state ∧
      (outcome (node.steps call.input call.output) call.driver.captured = .success →
        node.step call state = (node.launchedState call.input call.output (call.arrive state), .ok ()))) := by
  have direct := directCases node call.input call.output call.driver (call.arrive state) idle
  unfold step execute
  cases stored : (call.arrive state).graph with
  | none =>
    cases direct with
    | inl kept => exact .inr (.inl ⟨⟨kept.1.graph, kept.1.input, kept.1.output⟩, kept.2⟩)
    | inr launched =>
      refine .inr (.inr ⟨?_, launched.2⟩)
      cases launched.1
      constructor <;> assumption
  | some ops =>
    by_cases same : (call.arrive state).graphInput = call.input ∧ (call.arrive state).graphOutput = call.output
    · refine .inl ⟨ops, stored, same.1, same.2, ?_⟩
      simp only [if_pos same]
      cases replays : call.driver.replays with
      | false => exact ⟨⟨rfl, rfl, rfl⟩, fun absurd => nomatch absurd⟩
      | true =>
        simp only [if_true]
        exact ⟨⟨stored.symm, rfl, rfl⟩, fun _ => by rw [Stream.issueAllRuns (s := (call.arrive state).stream) idle]; rfl⟩
    · simp only [if_neg same]
      cases direct with
      | inl kept => exact .inr (.inl ⟨⟨kept.1.graph, kept.1.input, kept.1.output⟩, kept.2⟩)
      | inr launched => exact absurd (stored.symm.trans launched.1.first) (by simp)

/- A call that launches a whole graph has run the transform twice. -/
theorem launchedTwice (launched : node.Launches input output driver state) (idle : state.stream.capture = none)
    (whole : outcome (node.steps input output) driver.captured = .success) :
    node.execute input output driver state = (node.launchedState input output state, .ok ()) := by
  have capture : node.enabled ∧ (none : Option (List (DeviceOp R))).isNone ∧ ¬ state.graphFailed := by
    rw [launched.enabled, launched.usable]
    exact ⟨rfl, rfl, Bool.false_ne_true⟩
  unfold execute direct
  rw [launched.first, runSequenceAll _ _ _ launched.direct, Stream.issueAllRuns idle]
  simp only [if_pos capture]
  unfold captureGraph
  rw [if_pos ⟨launched.begins, rfl⟩, runSequenceAll _ _ _ whole, Stream.issueAllRecords rfl, launched.ends,
    launched.launches]
  cases checked : node.checked <;> simp [Stream.issueAllRuns, launchedState, transform]

section Run
variable {node} {state} {call} {footprint : ∀ input output, Footprint (node.transform input output)}

theorem stepFaithful (faithful : node.Faithful state) (meets : node.Meets footprint call state) :
    node.Faithful (node.step call state).1 ∧ node.Transparent call state := by
  have kept (same : SameGraph state (node.step call state).1) : node.Faithful (node.step call state).1 := by
    intro ops stored
    rw [same.graph] at stored
    rw [same.input, same.output]
    exact faithful ops stored
  rcases stepCases node state call meets.idle with replay | direct | launched
  · obtain ⟨ops, stored, input, output, same, memory⟩ := replay
    refine ⟨kept same, fun ok => ?_⟩
    rw [memory ok, faithful ops stored, input, output]
    rfl
  · exact ⟨kept direct.1, direct.2⟩
  · obtain ⟨apart, whole⟩ := meets.launched launched.1
    have next := launched.2 whole
    unfold Transparent
    rw [next]
    constructor
    · intro ops stored
      exact (Option.some.inj stored).symm
    · intro _
      exact apart.twice _

theorem alongFaithful {calls : List (Call R)} (faithful : node.Faithful state)
    (meets : node.Along (node.Meets footprint) calls state) : node.Along node.Transparent calls state := by
  induction calls generalizing state with
  | nil => trivial
  | cons call rest ih =>
    obtain ⟨next, now⟩ := stepFaithful faithful meets.1
    exact ⟨now, ih next meets.2⟩

theorem freshFaithful {memory : Memory R} : node.Faithful (fresh memory) := fun _ stored => nomatch stored

end Run

end Replayed

/- Every call that succeeds leaves memory as one execution of the inner transform does. -/
theorem replayTransparent (node : GraphEnabled R) (batch : ℕ) (memory : Memory R)
    (footprint : ∀ input output, Footprint ((node.replayed batch).transform input output)) (calls : List (Call R))
    (meets : (node.replayed batch).Along ((node.replayed batch).Meets footprint) calls (fresh memory)) :
    (node.replayed batch).Along (node.replayed batch).Transparent calls (fresh memory) :=
  Replayed.alongFaithful Replayed.freshFaithful meets

/- Forward transform of one row of two elements. -/
def pairChild : DeviceChild ℤ := fun src dst _ => [fun m a =>
  if a = dst.at 0 then m (src.at 0) + m (src.at 1)
  else if a = dst.at 1 then m (src.at 0) - m (src.at 1)
  else m a]

def pairNode : RawGraphNode ℤ := ⟨pairChild⟩

/- A driver that refuses nothing. -/
def willing : Driver := ⟨true, fun _ => .ok, true, fun _ => .ok, .ok, true⟩

def pairCall (input output : Address) : Call ℤ := ⟨id, input, output, willing⟩

def impulse (p : Address) : Memory ℤ := fun a => if a = p then 1 else 0

def pairFootprint (input output : Address) :
    Footprint (((GraphEnabled.rawGraph pairNode).replayed 1).transform input output) where
  reads a := a = input.at 0 ∨ a = input.at 1
  writes a := a = output.at 0 ∨ a = output.at 1
  kept m a outside := by
    have other := not_or.mp outside
    change (if _ then _ else if _ then _ else m a) = m a
    rw [if_neg other.1, if_neg other.2]
  determined m m' same a written := by
    change (if _ then m _ + m _ else if _ then m _ - m _ else _) = if _ then m' _ + m' _ else if _ then _ else _
    rw [same _ (.inl rfl), same _ (.inr rfl)]
    rcases written with rfl | rfl
    · simp
    · simp [Address.atInj]

/- Out of place: the call that captures, and a replay after the output was overwritten. -/
theorem replayTransparentTwoCalls : ((GraphEnabled.rawGraph pairNode).replayed 1).Along
    ((GraphEnabled.rawGraph pairNode).replayed 1).Transparent
    [pairCall ⟨0, 0⟩ ⟨1, 0⟩, pairCall ⟨0, 0⟩ ⟨1, 0⟩] (fresh (impulse ⟨0, 0⟩)) := by
  refine replayTransparent (.rawGraph pairNode) 1 (impulse ⟨0, 0⟩) pairFootprint _ ⟨⟨rfl, fun _ => ⟨?_, rfl⟩⟩,
    ⟨rfl, fun again => nomatch again.first⟩, trivial⟩
  rintro a (rfl | rfl) (clash | clash) <;> exact absurd clash (by decide)

/- In place the first call transforms twice: (1, 0) becomes (2, 0) and not (1, 1). -/
theorem replayRunsTwiceInPlace : ¬ ((GraphEnabled.rawGraph pairNode).replayed 1).Along
    ((GraphEnabled.rawGraph pairNode).replayed 1).Transparent
    [pairCall ⟨0, 0⟩ ⟨0, 0⟩] (fresh (impulse ⟨0, 0⟩)) := by
  intro transparent
  have first := congrFun (transparent.1 rfl) ⟨0, 0⟩
  exact absurd first (by decide)

end FlagFft.Graph
