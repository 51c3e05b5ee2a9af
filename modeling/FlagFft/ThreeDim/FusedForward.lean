import FlagFft.ThreeDim.Schedules

/-! The forward fused schedules: complex rows, or the half spectra of real rows, then the middle and the
outer axis, each turned by a kernel or stored where the next axis wants it. -/
namespace FlagFft.ThreeDim
open Library.Dft Library.RealDft Library.Indexing FlagFft.Real FlagFft.TwoDim

/- How a row of scalars is read as complex numbers. -/
structure Entries (entries : (ℕ → ℝ) → ℕ → ℂ) (nIn count : ℕ) : Prop where
  zero : entries (fun _ => 0) = fun _ => 0
  pulse : ∃ x, entries x = fun j => if j = 0 then 1 else 0
  reads : ∀ x y : ℕ → ℝ, (∀ j < nIn, x j = y j) → ∀ j < count, entries x j = entries y j

theorem interleavedEntries {count : ℕ} : Entries interleaved (2 * count) count where
  zero := funext fun _ => rfl
  pulse := ⟨scalars fun j => if j = 0 then 1 else 0, interleavedScalars _⟩
  reads x y same j hj := Complex.ext (same _ (by omega)) (same _ (by omega))

theorem realEntries {count : ℕ} : Entries (fun x j => (x j : ℂ)) count count where
  zero := funext fun _ => Complex.ofReal_zero
  pulse := ⟨fun j => if j = 0 then 1 else 0, funext fun j => by by_cases first : j = 0 <;> simp [first]⟩
  reads _ _ same j hj := congrArg Complex.ofReal (same j hj)

section Rows
variable {n0 n1 n2 d2 i0 i1 k2 : ℕ} {w0 w1 w2 : ℂ}

/- The first axis, `d2` frequencies of it, lying as (n0, d2, n1). -/
def turnedRows (n0 n1 n2 d2 : ℕ) (w2 : ℂ) (z : ℕ → ℂ) : ℕ → ℂ :=
  permuteRow .a021 n0 n1 d2 (blockRows n2 d2 (dft n2 w2) z)

/- `d2` frequencies of every row of the three-dimensional transform. -/
def cubeRow (n0 n1 n2 d2 : ℕ) (w0 w1 w2 : ℂ) (z : ℕ → ℂ) (o : ℕ) : ℂ :=
  dft3 n0 n1 n2 w0 w1 w2 z (cube n1 n2 (o / d2 / n1) (o / d2 % n1) (o % d2))

theorem turnedAt (z : ℕ → ℂ) (h0 : i0 < n0) (h1 : i1 < n1) (h2 : k2 < d2) :
    turnedRows n0 n1 n2 d2 w2 z (cube d2 n1 i0 k2 i1) = dft n2 w2 (fun j => z (cube n1 n2 i0 i1 j)) k2 := by
  refine (permuteAt .a021 _ h0 h1 h2).trans ?_
  unfold blockRows
  rw [cubeMod h2, cubeDiv h2]
  rfl

theorem turnedPulse (h0 : i0 < n0) (h1 : i1 < n1) (h2 : k2 < d2) (fits : d2 ≤ n2) :
    turnedRows n0 n1 n2 d2 w2 (fun j => if j = 0 then 1 else 0) (cube d2 n1 i0 k2 i1) =
      if i0 = 0 then if i1 = 0 then 1 else 0 else 0 := by
  have positive : 0 < n2 := (Nat.zero_lt_of_lt h2).trans_le fits
  rw [turnedAt _ h0 h1 h2]
  by_cases outer : i0 = 0
  · by_cases middle : i1 = 0
    · subst outer middle
      simp only [cube, Nat.zero_mul, Nat.zero_add]
      exact dftPulse positive
    · rw [if_pos outer, if_neg middle]
      refine (dftCongr fun j _ => if_neg ?_).trans dftZero
      have := Nat.mul_pos (show 0 < i0 * n1 + i1 by omega) positive
      exact fun absent => by unfold cube at absent; omega
  · rw [if_neg outer]
    refine (dftCongr fun j _ => if_neg ?_).trans dftZero
    have := Nat.mul_pos (show 0 < i0 * n1 + i1 by have := Nat.mul_pos (Nat.pos_of_ne_zero outer) (Nat.zero_lt_of_lt h1); omega)
      positive
    exact fun absent => by unfold cube at absent; omega

theorem turnedCube (z : ℕ → ℂ) (fits : d2 ≤ n2) {o : ℕ} (ho : o < n0 * n1 * d2) :
    outerRow n0 n1 d2 w0 (readRow .contiguous n0 n1 d2 w1 (turnedRows n0 n1 n2 d2 w2 z)) o =
      cubeRow n0 n1 n2 d2 w0 w1 w2 z o := by
  obtain ⟨k0, h0, k1, h1, k2, h2, rfl⟩ := cubeOf ho
  unfold cubeRow
  rw [cubeMod h2, cubeDiv h2, mulAddDiv h1, mulAddMod h1]
  exact (turnedPlanes (blockRows n2 d2 (dft n2 w2) z) ho).trans (planesOfRows z fits h1 h2)

theorem turnedCongr {z z' : ℕ → ℂ} (same : ∀ j < n0 * n1 * n2, z j = z' j) {o : ℕ} (ho : o < n0 * n1 * d2) :
    turnedRows n0 n1 n2 d2 w2 z o = turnedRows n0 n1 n2 d2 w2 z' o := by
  obtain ⟨i0, h0, k2, h2, i1, h1, rfl⟩ := cubeOf (ho.trans_eq (show n0 * n1 * d2 = n0 * d2 * n1 by ring))
  rw [turnedAt z h0 h1 h2, turnedAt z' h0 h1 h2]
  exact dftCongr fun j hj => same _ (cubeLt h0 h1 hj)

theorem turnedZero (o : ℕ) : turnedRows n0 n1 n2 d2 w2 (fun _ => 0) o = 0 := dftZero

theorem cubeRowZero (o : ℕ) : cubeRow n0 n1 n2 d2 w0 w1 w2 (fun _ => 0) o = 0 := by
  unfold cubeRow dft3
  simp

theorem scalarsZero {z : ℕ → ℂ} (zero : ∀ o, z o = 0) (k : ℕ) : scalars z k = 0 := by
  unfold scalars
  rw [zero]
  unfold Real.part
  split <;> rfl

theorem scalarsCongr {z z' : ℕ → ℂ} {k : ℕ} (same : z (k / 2) = z' (k / 2)) : scalars z k = scalars z' k := by
  unfold scalars
  rw [same]

end Rows

section Forward
variable {context : Context3d} {child : Address → Prop} {p q input output : Address} {n0 n1 n2 d2 nIn r0 r1 : ℕ}
  {w0 w1 w2 : ℂ} {entries : (ℕ → ℝ) → ℕ → ℂ} {head : List (Pass (Work ℝ))} {n1Fft n0Fft : ContextChild ℝ}
  {k210 k201 : Option (Perm3dKernel ℝ)}

/- The passes after the first axis has been left, turned, at `p`. -/
def planePasses (n1Fft n0Fft : ContextChild ℝ) (k210 k201 : Option (Perm3dKernel ℝ)) (r1 r0 total : ℕ)
    (context : Context3d) (p q output : Address) : List (Pass (Work ℝ)) :=
  axisPasses n1Fft k210 r1 total context p q p ++
    axisPasses n0Fft k201 r0 total context (leaves k210 q p) (if k201.isSome then leaves k210 p q else output) output

theorem outerTail (k210 : Option (Perm3dKernel ℝ)) (ok : Buffers p q input output child) (last : OuterOk n0Fft k201 child n0 n1 d2 w0)
    (count : r0 = context.batch * n1 * d2) :
    Stage (runPasses (axisPasses n0Fft k201 r0 (n0 * n1 * d2) context (leaves k210 q p)
      (if k201.isSome then leaves k210 p q else output) output)) (cubeScratch p q child) (leaves k210 q p) output
      (n0 * n1 * d2) (n0 * n1 * d2) context.batch (outerRow n0 n1 d2 w0) := by
  have ends : ∀ via, leaves k201 (if k201.isSome then via else output) output = output := by
    intro via
    unfold leaves
    split <;> rfl
  have stage : ∀ source via : Address, source.buffer ≠ via.buffer → via.buffer ≠ output.buffer →
      source.buffer ≠ output.buffer → (∀ i, ¬ child (source.at i)) → (∀ i, ¬ child (via.at i)) →
      (∀ i, cubeScratch p q child (via.at i)) →
      Stage (runPasses (axisPasses n0Fft k201 r0 (n0 * n1 * d2) context source (if k201.isSome then via else output) output))
        (cubeScratch p q child) source output (n0 * n1 * d2) (n0 * n1 * d2) context.batch (outerRow n0 n1 d2 w0) := by
    intro source via apart leave direct sourceKept viaKept inside
    have axis : Stage (runPasses (axisPasses n0Fft k201 r0 (n0 * n1 * d2) context source
        (if k201.isSome then via else output) output)) (cubeScratch p q child) source _ _ _ context.batch _ :=
      outerTurns _ output last (by split <;> assumption) (fun k present => by rw [present]; exact leave) sourceKept
        (by split; exacts [viaKept, ok.outputKept]) (fun _ => cubeScratchChild)
        (fun k present => by rw [present]; exact inside) count
    rw [ends] at axis
    exact axis
  cases k210 with
  | none =>
    exact stage q p ok.apart.symm ok.output1 ok.output2 ok.secondKept ok.firstKept fun _ => .inl rfl
  | some k =>
    exact stage p q ok.apart ok.output2 ok.output1 ok.firstKept ok.secondKept fun _ => .inr (.inl rfl)

/- A forward schedule leaves every transform in its place exactly when a kernel turns the middle axis, or no
second batch element and no second row can mix. -/
theorem fusedForward (form : Entries entries nIn (n0 * n1 * n2)) (fits : d2 ≤ n2) (ok : Buffers p q input output child)
    (first : RowRun (runPasses head) (cubeScratch p q child) input p nIn (2 * (n0 * n1 * d2)) context.batch
      fun x => scalars (turnedRows n0 n1 n2 d2 w2 (entries x)))
    (mid : MiddleOk n1Fft k210 .contiguous child n0 n1 d2 w1) (last : OuterOk n0Fft k201 child n0 n1 d2 w0)
    (rows1 : r1 = context.batch * n0 * d2) (rows0 : r0 = context.batch * n1 * d2) (outers : 0 < n0) (middles : 0 < n1)
    (inners : 0 < d2) :
    RowRun (runPasses (head ++ planePasses n1Fft n0Fft k210 k201 r1 r0 (n0 * n1 * d2) context p q output))
      (cubeScratch p q child) input output nIn (2 * (n0 * n1 * d2)) context.batch
      (fun x => scalars (cubeRow n0 n1 n2 d2 w0 w1 w2 (entries x))) ↔
    (k210.isSome = false → context.batch ≤ 1 ∨ n1 * d2 = 1) := by
  obtain ⟨x, impulse⟩ := form.pulse
  have tail := outerTail k210 ok last rows0
  have between : ∀ i, cubeScratch p q child ((leaves k210 q p).at i) := by
    intro i
    unfold leaves
    split
    · exact .inl rfl
    · exact .inr (.inl rfl)
  have headLocal : RowLocal nIn (2 * (n0 * n1 * d2)) fun x => scalars (turnedRows n0 n1 n2 d2 w2 (entries x)) :=
    fun x y same k hk => scalarsCongr (turnedCongr (form.reads x y same) (by omega))
  have value : ∀ x, ∀ k < 2 * (n0 * n1 * d2), lift (outerRow n0 n1 d2 w0) (lift (readRow .contiguous n0 n1 d2 w1)
      (scalars (turnedRows n0 n1 n2 d2 w2 (entries x)))) k = scalars (cubeRow n0 n1 n2 d2 w0 w1 w2 (entries x)) k := by
    intro x k hk
    unfold lift
    rw [interleavedScalars, interleavedScalars]
    exact scalarsCongr (turnedCube _ fits (by omega))
  have pulse : Pulses (fun x => scalars (turnedRows n0 n1 n2 d2 w2 (entries x))) .contiguous n0 n1 d2 x fun _ => 1 := by
    intro i0 h0 i1 h1 k2 h2
    rw [interleavedScalars, impulse, Complex.ofReal_one]
    exact turnedPulse h0 h1 h2 fits
  unfold planePasses
  rw [← List.append_assoc, runPassesAppend, runPassesAppend]
  refine fusedIff first (fun stage => first.comp stage.run (liftLocal stage.rowLocal) fun _ _ _ _ => .inl rfl)
    (fun turned => middleTurns q p mid turned ok.apart ok.apart.symm ok.firstKept ok.secondKept
      (fun _ => cubeScratchChild) (fun _ => .inr (.inl rfl)) rows1)
    (fun turned => middleStores q p mid turned ok.apart ok.firstKept ok.secondKept (fun _ => cubeScratchChild) rows1)
    tail.run between headLocal (liftLocal tail.rowLocal) value ?_ ?_ pulse (fun _ => zero_le_one) one_ne_zero
    (outerDetects outers) middles inners
  · intro k _
    rw [form.zero]
    exact scalarsZero turnedZero k
  · intro k _
    rw [form.zero]
    exact scalarsZero cubeRowZero k

end Forward

section Heads
variable {context : Context3d} {child : Address → Prop} {p q input output : Address} {n0 n1 n2 d2 rows : ℕ} {w2 : ℂ}
  {fft : ContextChild ℝ} {kernel : Option (Perm3dKernel ℝ)}

/- The first axis of complex rows: plain with a kernel behind it, or stored in the outer form. -/
structure InnermostOk (fft : ContextChild ℝ) (kernel : Option (Perm3dKernel ℝ)) (child : Address → Prop) (n0 n1 d2 : ℕ)
    (w : ℂ) : Prop where
  computes : ∀ k, kernel = some k → fft.Computes child 0 0 (2 * d2) (2 * d2) (lift (dft d2 w)) ∧ k.Permutes .a021 n0 n1 d2
  stores : kernel = none → StoresOuter fft child 0 (2 * d2) d2 n1 (lift (dft d2 w))

theorem Buffers.swap (ok : Buffers p q input output child) : Buffers q p input output child where
  apart := ok.apart.symm
  firstKept := ok.secondKept
  secondKept := ok.firstKept
  inputFree i inside := by
    rcases inside with first | second | inner
    · exact ok.inputFree i (.inr (.inl first))
    · exact ok.inputFree i (.inl second)
    · exact ok.inputFree i (.inr (.inr inner))
  outputFree i inside := by
    rcases inside with first | second | inner
    · exact ok.outputFree i (.inr (.inl first))
    · exact ok.outputFree i (.inl second)
    · exact ok.outputFree i (.inr (.inr inner))

theorem cubeScratchSwap : cubeScratch q p child = cubeScratch p q child := by
  funext a
  unfold cubeScratch
  exact propext or_left_comm

theorem complexHead (context : Context3d) (ok : Buffers p q input output child) (first : InnermostOk fft kernel child n0 n1 d2 w2)
    (count : rows = context.batch * n0 * n1) :
    RowRun (runPasses (axisPasses fft kernel rows (n0 * n1 * d2) context input p q)) (cubeScratch p q child) input
      (leaves kernel p q) (2 * (n0 * n1 * d2)) (2 * (n0 * n1 * d2)) context.batch
      fun x => scalars (turnedRows n0 n1 d2 d2 w2 (interleaved x)) :=
  (innermostStage first.computes first.stores ok.input1 ok.apart ok.inputKept ok.firstKept (fun _ => cubeScratchChild)
    (fun _ => .inl rfl) count).run

/- The half spectra of real rows, turned. -/
theorem halfTurned (n0 n1 n2 : ℕ) (x : ℕ → ℝ) :
    lift (permuteRow .a021 n0 n1 (n2 / 2 + 1)) (blockRows n2 (2 * (n2 / 2 + 1)) (r2cRow n2) x) =
      scalars (turnedRows n0 n1 n2 (n2 / 2 + 1) (forwardRoot n2) fun j => (x j : ℂ)) := by
  rw [r2cBlockRows, liftScalars]
  rfl

/- The first axis of real rows, left at `target`. -/
def halfPasses (fft : ContextChild ℝ) (kernel : Option (Perm3dKernel ℝ)) (distance rows total : ℕ) (context : Context3d)
    (input via target : Address) : List (Pass (Work ℝ)) :=
  match kernel with
  | none => [.between (fun src dst => fft src dst ⟨rows, 0, distance⟩) input target]
  | some kernel => [fftPass fft rows input via, permuteKernelPass kernel total context via target]

structure HalfOk (fft : ContextChild ℝ) (kernel : Option (Perm3dKernel ℝ)) (child : Address → Prop)
    (distance n0 n1 n2 : ℕ) : Prop where
  computes : ∀ k, kernel = some k → fft.Computes child 0 0 n2 (2 * (n2 / 2 + 1)) (r2cRow n2) ∧
    k.Permutes .a021 n0 n1 (n2 / 2 + 1)
  stores : kernel = none → StoresOuter fft child distance n2 (n2 / 2 + 1) n1 (r2cRow n2)

theorem halfHead {distance : ℕ} (ok : Buffers p q input output child) (first : HalfOk fft kernel child distance n0 n1 n2)
    (count : rows = context.batch * n0 * n1) :
    RowRun (runPasses (halfPasses fft kernel distance rows (n0 * n1 * (n2 / 2 + 1)) context input q p))
      (cubeScratch p q child) input p (n0 * n1 * n2) (2 * (n0 * n1 * (n2 / 2 + 1))) context.batch
      fun x => scalars (turnedRows n0 n1 n2 (n2 / 2 + 1) (forwardRoot n2) fun j => (x j : ℂ)) := by
  subst count
  have sub : ∀ a, child a → cubeScratch p q child a := fun _ => cubeScratchChild
  cases kernel with
  | none =>
    have run := (first.stores rfl input p (context.batch * n0) ok.input1 ok.inputKept ok.firstKept).mono sub
    unfold halfPasses
    rw [runPassesSingle]
    exact (outerRun run).congr fun x k _ => congrFun (halfTurned n0 n1 n2 x) k
  | some k =>
    obtain ⟨computes, permutes⟩ := first.computes k rfl
    have run := (computes input q (context.batch * (n0 * n1)) (.inr ok.input2) ok.inputKept ok.secondKept).mono sub
    have half := blockRowsRun run
    have size : n0 * n1 * (2 * (n2 / 2 + 1)) = 2 * (n0 * n1 * (n2 / 2 + 1)) := by ring
    rw [size, ← Nat.mul_assoc context.batch] at half
    unfold halfPasses
    rw [runPassesCons, runPassesSingle]
    refine (LayoutRun.comp half (kernelStage context (cubeScratch p q child) permutes ok.apart.symm).run (liftLocal permuteLocal)
      fun _ _ _ _ => .inr (.inl rfl)).congr fun x k _ => ?_
    exact congrFun (halfTurned n0 n1 n2 x) k

end Heads

section Nodes
variable {context : Context3d} {child : Address → Prop} {w0 w1 w2 : ℂ} {input output : Address}

/- Only the first `nOut` elements of a row function matter. -/
theorem runCongr {op : Work ℝ} {scratch : Address → Prop} {src dst : Layout} {nOut rows : ℕ} {f g : (ℕ → ℝ) → ℕ → ℝ}
    (same : ∀ x, ∀ k < nOut, f x k = g x k) :
    LayoutRun op scratch src dst nOut rows f ↔ LayoutRun op scratch src dst nOut rows g :=
  ⟨fun ok => ok.congr same, fun ok => ok.congr fun x k hk => (same x k hk).symm⟩

theorem cubeRowWhole {n0 n1 n2 : ℕ} (x : ℕ → ℝ) {k : ℕ} (hk : k < 2 * (n0 * n1 * n2)) :
    scalars (cubeRow n0 n1 n2 n2 w0 w1 w2 (interleaved x)) k = lift (dft3 n0 n1 n2 w0 w1 w2) x k := by
  unfold lift
  refine scalarsCongr ?_
  obtain ⟨k0, _, k1, h1, k2, h2, place⟩ := cubeOf (show k / 2 < n0 * n1 * n2 by omega)
  unfold cubeRow
  rw [place, cubeMod h2, cubeDiv h2, mulAddDiv h1, mulAddMod h1]

structure Raw3DHybridNode.Ok (node : Raw3DHybridNode ℝ) (child : Address → Prop) (w0 w1 w2 : ℂ) (input output : Address) :
    Prop where
  n2 : InnermostOk node.n2Fft node.perm021 child node.n0 node.n1 node.n2 w2
  n1 : MiddleOk node.n1Fft node.perm210 .contiguous child node.n0 node.n1 node.n2 w1
  n0 : OuterOk node.n0Fft node.perm201 child node.n0 node.n1 node.n2 w0
  buffers : Buffers node.temp1 node.temp2 input output child
  positive : 0 < node.n0 ∧ 0 < node.n1 ∧ 0 < node.n2

theorem Raw3DHybridNode.passesEq (node : Raw3DHybridNode ℝ) (apart : node.temp1.buffer ≠ node.temp2.buffer) :
    node.passes context input output =
      axisPasses node.n2Fft node.perm021 (context.batch * node.n0 * node.n1) (node.n0 * node.n1 * node.n2) context input
        node.temp1 node.temp2 ++
      planePasses node.n1Fft node.n0Fft node.perm210 node.perm201 (context.batch * node.n0 * node.n2)
        (context.batch * node.n1 * node.n2) (node.n0 * node.n1 * node.n2) context (leaves node.perm021 node.temp1 node.temp2)
        (leaves node.perm021 node.temp2 node.temp1) output := by
  have different : node.temp2 ≠ node.temp1 := fun same => apart (congrArg Address.buffer same).symm
  unfold passes planePasses axisPasses
  rw [List.append_assoc]
  unfold n0Output n0Input n1Input n1Output leaves
  cases node.perm021 <;> cases node.perm210 <;> simp [different]

theorem Raw3DHybridNode.executeIff {node : Raw3DHybridNode ℝ} (context : Context3d) (ok : node.Ok child w0 w1 w2 input output) :
    RowRun (node.execute context input output) (cubeScratch node.temp1 node.temp2 child) input output
      (2 * (node.n0 * node.n1 * node.n2)) (2 * (node.n0 * node.n1 * node.n2)) context.batch
      (lift (dft3 node.n0 node.n1 node.n2 w0 w1 w2)) ↔
    (node.perm210.isSome = false → context.batch ≤ 1 ∨ node.n1 * node.n2 = 1) := by
  obtain ⟨outers, middles, inners⟩ := ok.positive
  have head := complexHead context ok.buffers ok.n2 rfl
  unfold execute
  rw [passesEq node ok.buffers.apart]
  refine (runCongr fun x k hk => (cubeRowWhole x hk).symm).trans ?_
  cases present : node.perm021 with
  | none =>
    rw [present] at head
    exact fusedForward interleavedEntries le_rfl ok.buffers head ok.n1 ok.n0 rfl rfl outers middles inners
  | some k =>
    rw [present] at head
    rw [← cubeScratchSwap] at head ⊢
    exact fusedForward interleavedEntries le_rfl ok.buffers.swap head ok.n1 ok.n0 rfl rfl outers middles inners

/- The strided node is the hybrid node without a kernel. -/
def Raw3DStridedNode.hybrid {S : Type*} (node : Raw3DStridedNode S) : Raw3DHybridNode S where
  n0 := node.n0
  n1 := node.n1
  n2 := node.n2
  n2Fft := node.n2Fft
  n1Fft := node.n1Fft
  n0Fft := node.n0Fft
  perm210 := none
  perm021 := none
  perm201 := none
  temp1 := node.temp1
  temp2 := node.temp2

theorem Raw3DStridedNode.executeIff {node : Raw3DStridedNode ℝ} (ok : node.hybrid.Ok child w0 w1 w2 input output) :
    RowRun (node.execute context input output) (cubeScratch node.temp1 node.temp2 child) input output
      (2 * (node.n0 * node.n1 * node.n2)) (2 * (node.n0 * node.n1 * node.n2)) context.batch
      (lift (dft3 node.n0 node.n1 node.n2 w0 w1 w2)) ↔
    (context.batch ≤ 1 ∨ node.n1 * node.n2 = 1) := by
  have same : node.hybrid.execute context input output = node.execute context input output := rfl
  have iff := Raw3DHybridNode.executeIff context ok
  rw [same] at iff
  exact iff.trans ⟨fun alone => alone rfl, fun alone _ => alone⟩

section RealLeaf
variable (node : Raw3DRealLeafNode ℝ)

/- The schedules of the real leaf node in which at least one leaf stores a permuted row. -/
def Raw3DRealLeafNode.Fused : Prop :=
  node.layout = .legacy ∧ node.fusedStore = true ∨ node.layout = .fusedStore ∨ node.layout = .r2cFirstStore

/- The kernel behind each axis, if the schedule has one. -/
def Raw3DRealLeafNode.kernel021 : Option (Perm3dKernel ℝ) :=
  match node.layout with
  | .legacy => if node.n2Permuted then none else some node.perm021
  | .r2cFirstStore => none
  | _ => some node.permFirst

def Raw3DRealLeafNode.kernel210 : Option (Perm3dKernel ℝ) :=
  match node.layout with
  | .legacy => node.perm210
  | .r2cFirstStore => some node.permSecond
  | _ => none

def Raw3DRealLeafNode.kernel201 : Option (Perm3dKernel ℝ) :=
  match node.layout with
  | .r2cFirstStore => some node.permThird
  | _ => none

def Raw3DRealLeafNode.inverse021 : Option (Perm3dKernel ℝ) :=
  match node.layout with
  | .legacy => if node.n1StridedInput then none else some node.perm021
  | _ => some node.permFirst

structure Raw3DRealLeafNode.ForwardOk (child : Address → Prop) (w0 w1 : ℂ) (input output : Address) : Prop where
  n2 : HalfOk node.n2RealFft node.kernel021 child 0 node.n0 node.n1 node.n2
  n1 : MiddleOk node.n1Fft node.kernel210 .contiguous child node.n0 node.n1 (node.n2 / 2 + 1) w1
  n0 : OuterOk node.n0Fft node.kernel201 child node.n0 node.n1 (node.n2 / 2 + 1) w0
  buffers : Buffers node.temp2 node.temp1 input output child
  fused : node.Fused
  forward : node.inverse = false
  positive : 0 < node.n0 ∧ 0 < node.n1 ∧ 0 < node.n2

theorem Raw3DRealLeafNode.forwardPasses (fused : node.Fused) (forward : node.inverse = false) :
    node.passes context input output =
      halfPasses node.n2RealFft node.kernel021 0 (context.batch * node.n0 * node.n1) (node.n0 * node.n1 * (node.n2 / 2 + 1))
        context input node.temp1 node.temp2 ++
      planePasses node.n1Fft node.n0Fft node.kernel210 node.kernel201 (context.batch * node.n0 * (node.n2 / 2 + 1))
        (context.batch * node.n1 * (node.n2 / 2 + 1)) (node.n0 * node.n1 * (node.n2 / 2 + 1)) context node.temp2 node.temp1
        output := by
  unfold passes kernel021 kernel210 kernel201
  rcases fused with ⟨layout, stores⟩ | layout | layout
  · rw [layout, if_pos rfl]
    unfold legacyPasses
    rw [forward, stores]
    cases node.n2Permuted <;> cases node.perm210 <;> rfl
  · rw [layout, if_neg (by decide)]
    unfold laidOutPasses
    rw [forward, layout]
    rfl
  · rw [layout, if_neg (by decide)]
    unfold laidOutPasses
    rw [forward, layout]
    rfl

theorem Raw3DRealLeafNode.forwardIff {node : Raw3DRealLeafNode ℝ}
    (ok : node.ForwardOk child (forwardRoot node.n0) (forwardRoot node.n1) input output) :
    RowRun (node.execute context input output) (cubeScratch node.temp2 node.temp1 child) input output
      (node.n0 * node.n1 * node.n2) (2 * (node.n0 * node.n1 * (node.n2 / 2 + 1))) context.batch
      (r2c3Row node.n0 node.n1 node.n2) ↔
    (node.kernel210.isSome = false → context.batch ≤ 1 ∨ node.n1 * (node.n2 / 2 + 1) = 1) := by
  obtain ⟨outers, middles, length⟩ := ok.positive
  unfold execute
  rw [forwardPasses node ok.fused ok.forward]
  exact fusedForward realEntries (by omega) ok.buffers (halfHead ok.buffers ok.n2 rfl) ok.n1 ok.n0 rfl rfl outers middles
    (Nat.succ_pos _)

end RealLeaf

section RTRT
variable (node : Raw3DRealRTRTNode ℝ)

/- Permutation kernels and leaves only: the vendor's transpose and its stores are not used. -/
structure Raw3DRealRTRTNode.Generated : Prop where
  native : node.native = none
  outer : node.npuFusedOuterStores = false
  final : node.npuFusedSmallFinalStore = false

theorem Raw3DRealRTRTNode.permuteKernel (native : node.native = none) (context : Context3d)
    (kernel : Option (Perm3dKernel ℝ)) (order : AxisOrder) {d0 d1 d2 total : ℕ} (size : d0 * d1 * d2 = total) :
    node.permute context kernel d0 d1 d2 order = permuteKernelPass (kernel.getD .absent) total context := by
  subst size
  unfold permute
  rw [native]
  rfl

structure Raw3DRealRTRTNode.ForwardOk (child : Address → Prop) (w0 w1 : ℂ) (input output : Address) : Prop where
  n2 : HalfOk node.n2RealFft node.perm021 child node.n1 node.n0 node.n1 node.n2
  n1 : MiddleOk node.n1Fft node.perm210 .contiguous child node.n0 node.n1 (node.n2 / 2 + 1) w1
  n0 : OuterOk node.n0Fft node.perm201 child node.n0 node.n1 (node.n2 / 2 + 1) w0
  buffers : Buffers node.temp2 node.temp1 input output child
  generated : node.Generated
  forward : node.inverse = false
  positive : 0 < node.n0 ∧ 0 < node.n1 ∧ 0 < node.n2

theorem Raw3DRealRTRTNode.forwardPasses (generated : node.Generated) (forward : node.inverse = false) :
    node.passes context input output =
      halfPasses node.n2RealFft node.perm021 node.n1 (context.batch * node.n0 * node.n1)
        (node.n0 * node.n1 * (node.n2 / 2 + 1)) context input node.temp1 node.temp2 ++
      planePasses node.n1Fft node.n0Fft node.perm210 node.perm201 (context.batch * node.n0 * (node.n2 / 2 + 1))
        (context.batch * node.n1 * (node.n2 / 2 + 1)) (node.n0 * node.n1 * (node.n2 / 2 + 1)) context node.temp2 node.temp1
        output := by
  have turn021 := node.permuteKernel generated.native context node.perm021 .a021
    (show node.n0 * node.n1 * (node.n2 / 2 + 1) = node.n0 * node.n1 * (node.n2 / 2 + 1) from rfl)
  have turn210 := node.permuteKernel generated.native context node.perm210 .a210
    (show node.n0 * (node.n2 / 2 + 1) * node.n1 = node.n0 * node.n1 * (node.n2 / 2 + 1) by ring)
  have turn201 := node.permuteKernel generated.native context node.perm201 .a201
    (show node.n1 * (node.n2 / 2 + 1) * node.n0 = node.n0 * node.n1 * (node.n2 / 2 + 1) by ring)
  unfold passes axisPasses
  simp only [generated.outer, forward, turn021, turn210, turn201, Bool.false_eq_true, if_false, if_true]
  unfold hasPerm021 hasPerm210 hasPerm201
  rw [generated.native, generated.final]
  cases node.perm021 <;> cases node.perm210 <;> cases node.perm201 <;> rfl

theorem Raw3DRealRTRTNode.forwardIff {node : Raw3DRealRTRTNode ℝ}
    (ok : node.ForwardOk child (forwardRoot node.n0) (forwardRoot node.n1) input output) :
    RowRun (node.execute context input output) (cubeScratch node.temp2 node.temp1 child) input output
      (node.n0 * node.n1 * node.n2) (2 * (node.n0 * node.n1 * (node.n2 / 2 + 1))) context.batch
      (r2c3Row node.n0 node.n1 node.n2) ↔
    (node.perm210.isSome = false → context.batch ≤ 1 ∨ node.n1 * (node.n2 / 2 + 1) = 1) := by
  obtain ⟨outers, middles, length⟩ := ok.positive
  unfold execute
  rw [forwardPasses node ok.generated ok.forward]
  exact fusedForward realEntries (by omega) ok.buffers (halfHead ok.buffers ok.n2 rfl) ok.n1 ok.n0 rfl rfl outers middles
    (Nat.succ_pos _)

end RTRT

end Nodes

end FlagFft.ThreeDim
