import FlagFft.ThreeDim.FusedForward

/-! The inverse fused schedules: the half spectrum turned in, or read in columns, the middle and the outer
axis, and the real rows last. -/
namespace FlagFft.ThreeDim
open Library.Dft Library.RealDft Library.Indexing FlagFft.Real FlagFft.TwoDim
open scoped ComplexConjugate

/- How the middle axis reads: a kernel makes its rows contiguous, or its leaf reads columns. -/
def readingOf (k021 : Option (Perm3dKernel ℝ)) : Reading := if k021.isSome then .contiguous else .strided

def opened (reading : Reading) (n0 n1 d2 : ℕ) (z : ℕ → ℂ) : ℕ → ℂ :=
  match reading with
  | .contiguous => permuteRow .a021 n0 n1 d2 z
  | .strided => z

section Rows
variable {reading : Reading} {n0 n1 n2 d2 i0 i1 k2 : ℕ} {w0 w1 : ℂ}

theorem openedAt (z : ℕ → ℂ) (h0 : i0 < n0) (h1 : i1 < n1) (h2 : k2 < d2) :
    opened reading n0 n1 d2 z (reading.place n1 d2 i0 k2 i1) = z (cube n1 d2 i0 i1 k2) := by
  cases reading with
  | contiguous => exact permuteAt .a021 z h0 h1 h2
  | strided => rfl

theorem openedLocal : RowLocal (n0 * n1 * d2) (n0 * n1 * d2) (opened reading n0 n1 d2) := by
  cases reading with
  | contiguous => exact permuteLocal
  | strided => exact fun _ _ same => same

theorem openedZero (o : ℕ) : opened reading n0 n1 d2 (fun _ => 0) o = 0 := by
  cases reading <;> rfl

theorem openedPlanes (z : ℕ → ℂ) {o : ℕ} (ho : o < n0 * n1 * d2) :
    outerRow n0 n1 d2 w0 (readRow reading n0 n1 d2 w1 (opened reading n0 n1 d2 z)) o = planes n0 n1 d2 w0 w1 z o := by
  obtain ⟨k0, h0, k1, h1, k2, h2, rfl⟩ := cubeOf ho
  rw [planesAt z h1 h2, outerAt _ h1 h2]
  refine dftCongr fun j0 hj0 => ?_
  rw [readRowAt _ hj0 h2]
  exact dftCongr fun j1 hj1 => openedAt z hj0 hj1 h2

theorem cubeZero (middles : 0 < n1) (inners : 0 < d2) : cube n1 d2 i0 i1 k2 = 0 ↔ i0 = 0 ∧ i1 = 0 ∧ k2 = 0 := by
  unfold cube
  constructor
  · intro zero
    have row : i0 * n1 + i1 = 0 := by
      by_contra some
      have := Nat.mul_pos (Nat.pos_of_ne_zero some) inners
      omega
    have outer : i0 = 0 := by
      by_contra some
      have := Nat.mul_pos (Nat.pos_of_ne_zero some) middles
      omega
    exact ⟨outer, by omega, by omega⟩
  · rintro ⟨rfl, rfl, rfl⟩
    ring

theorem openedPulse (h0 : i0 < n0) (h1 : i1 < n1) (h2 : k2 < d2) :
    opened reading n0 n1 d2 (fun j => if j = 0 then 1 else 0) (reading.place n1 d2 i0 k2 i1) =
      if i0 = 0 then if i1 = 0 then (((if k2 = 0 then 1 else 0 : ℝ)) : ℂ) else 0 else 0 := by
  rw [openedAt _ h0 h1 h2]
  simp only [cubeZero (Nat.zero_lt_of_lt h1) (Nat.zero_lt_of_lt h2)]
  by_cases outer : i0 = 0 <;> by_cases middle : i1 = 0 <;> by_cases inner : k2 = 0 <;> simp [outer, middle, inner]

theorem c2r3Zero (t : ℕ) : c2r3Row n0 n1 n2 (fun _ => 0) t = 0 := by
  have zero : mirrored3 n0 n1 n2 (interleaved fun _ => 0) = fun _ => 0 := by
    funext o
    unfold mirrored3
    split
    · rfl
    · exact map_zero _
  unfold c2r3Row dft3
  rw [zero]
  simp

end Rows

section Inverse
variable {context : Context3d} {child : Address → Prop} {p q input output : Address} {n0 n1 n2 r0 r1 r2 : ℕ}
  {w0 w1 : ℂ} {n1Fft n0Fft n2Fft : ContextChild ℝ} {k021 k210 k201 : Option (Perm3dKernel ℝ)}

def inversePasses (n1Fft n0Fft n2Fft : ContextChild ℝ) (k021 k210 k201 : Option (Perm3dKernel ℝ)) (r1 r0 r2 total : ℕ)
    (context : Context3d) (p q input output : Address) : List (Pass (Work ℝ)) :=
  turnPasses k021 total context input p ++
    axisPasses n1Fft k210 r1 total context (if k021.isSome then p else input) q p ++
    (axisPasses n0Fft k201 r0 total context (leaves k210 q p) (leaves k210 p q) (leaves k210 q p) ++
      [fftPass n2Fft r2 (leaves k201 (leaves k210 p q) (leaves k210 q p)) output])

/- The outer axis between the two buffers, then the real rows. -/
theorem realTail {a b : Address} (ok : Buffers a b input output child)
    (last : OuterOk n0Fft k201 child n0 n1 (n2 / 2 + 1) w0)
    (real : n2Fft.Computes child 0 0 (2 * (n2 / 2 + 1)) n2 (c2rRow n2 (conj (forwardRoot n2))))
    (rows0 : r0 = context.batch * n1 * (n2 / 2 + 1)) (rows2 : r2 = context.batch * n0 * n1) :
    RowRun (runPasses (axisPasses n0Fft k201 r0 (n0 * n1 * (n2 / 2 + 1)) context a b a ++
      [fftPass n2Fft r2 (leaves k201 b a) output])) (cubeScratch a b child) a output (2 * (n0 * n1 * (n2 / 2 + 1)))
      (n0 * n1 * n2) context.batch fun y => blockRows (2 * (n2 / 2 + 1)) n2 (c2rRow n2 (conj (forwardRoot n2)))
        (lift (outerRow n0 n1 (n2 / 2 + 1) w0) y) := by
  subst rows2
  have sub : ∀ x, child x → cubeScratch a b child x := fun _ => cubeScratchChild
  have axis := outerTurns b a last ok.apart (fun _ _ => ok.apart.symm) ok.firstKept ok.secondKept sub
    (fun _ _ _ => .inr (.inl rfl)) rows0
  have ends : leaves k201 b a = b ∨ leaves k201 b a = a := by
    unfold leaves
    split
    · exact .inr rfl
    · exact .inl rfl
  have size : n0 * n1 * (2 * (n2 / 2 + 1)) = 2 * (n0 * n1 * (n2 / 2 + 1)) := by ring
  have realLocal : RowLocal (n0 * n1 * (2 * (n2 / 2 + 1))) (n0 * n1 * n2)
      (blockRows (2 * (n2 / 2 + 1)) n2 (c2rRow n2 (conj (forwardRoot n2)))) := blockRowsLocal c2rRowLocal
  have rows : ∀ c, c = b ∨ c = a → RowRun (n2Fft c output ⟨context.batch * (n0 * n1), 0, 0⟩) (cubeScratch a b child) c
      output (n0 * n1 * (2 * (n2 / 2 + 1))) (n0 * n1 * n2) context.batch
      (blockRows (2 * (n2 / 2 + 1)) n2 (c2rRow n2 (conj (forwardRoot n2)))) := by
    intro c place
    refine blockRowsRun ((real c output (context.batch * (n0 * n1)) (.inr ?_) ?_ ok.outputKept).mono sub)
    · rcases place with rfl | rfl
      · exact ok.output2
      · exact ok.output1
    · rcases place with rfl | rfl
      · exact ok.secondKept
      · exact ok.firstKept
  have inside : ∀ i, cubeScratch a b child ((leaves k201 b a).at i) := by
    intro i
    rcases ends with place | place
    · rw [place]
      exact .inr (.inl rfl)
    · rw [place]
      exact .inl rfl
  have last := rows _ ends
  rw [size, ← Nat.mul_assoc] at last
  rw [size] at realLocal
  rw [runPassesAppend, runPassesSingle]
  exact LayoutRun.comp axis.run last realLocal fun _ _ _ _ => inside _

/- An inverse schedule likewise. -/
theorem fusedInverse (ok : Buffers p q input output child)
    (first : ∀ k, k021 = some k → k.Permutes .a021 n0 n1 (n2 / 2 + 1))
    (mid : MiddleOk n1Fft k210 (readingOf k021) child n0 n1 (n2 / 2 + 1) (conj (forwardRoot n1)))
    (last : OuterOk n0Fft k201 child n0 n1 (n2 / 2 + 1) (conj (forwardRoot n0)))
    (real : n2Fft.Computes child 0 0 (2 * (n2 / 2 + 1)) n2 (c2rRow n2 (conj (forwardRoot n2))))
    (rows1 : r1 = context.batch * n0 * (n2 / 2 + 1)) (rows0 : r0 = context.batch * n1 * (n2 / 2 + 1))
    (rows2 : r2 = context.batch * n0 * n1) (outers : 0 < n0) (middles : 0 < n1) (length : 0 < n2) :
    RowRun (runPasses (inversePasses n1Fft n0Fft n2Fft k021 k210 k201 r1 r0 r2 (n0 * n1 * (n2 / 2 + 1)) context p q input
      output)) (cubeScratch p q child) input output (2 * (n0 * n1 * (n2 / 2 + 1))) (n0 * n1 * n2) context.batch
      (c2r3Row n0 n1 n2) ↔
    (k210.isSome = false → context.batch ≤ 1 ∨ n1 * (n2 / 2 + 1) = 1) := by
  have sub : ∀ x, child x → cubeScratch p q child x := fun _ => cubeScratchChild
  let source : Address := if k021.isSome then p else input
  have sourceKept : ∀ i, ¬ child (source.at i) := by
    intro i
    change ¬ child ((if k021.isSome then p else input).at i)
    split
    · exact ok.firstKept i
    · exact ok.inputKept i
  have entry : source.buffer ≠ q.buffer := by
    change (if k021.isSome then p else input).buffer ≠ q.buffer
    split
    · exact ok.apart
    · exact ok.input2
  have head : RowRun (runPasses (turnPasses k021 (n0 * n1 * (n2 / 2 + 1)) context input p)) (cubeScratch p q child) input
      source (2 * (n0 * n1 * (n2 / 2 + 1))) (2 * (n0 * n1 * (n2 / 2 + 1))) context.batch
      (lift (opened (readingOf k021) n0 n1 (n2 / 2 + 1))) := by
    cases k021 with
    | none => exact inputRun.congr fun x k _ => (congrFun (scalarsInterleaved x) k).symm
    | some k => exact (kernelStage context (cubeScratch p q child) (first k rfl) ok.input1).single.run
  have tail : RowRun (runPasses (axisPasses n0Fft k201 r0 (n0 * n1 * (n2 / 2 + 1)) context (leaves k210 q p)
      (leaves k210 p q) (leaves k210 q p) ++ [fftPass n2Fft r2 (leaves k201 (leaves k210 p q) (leaves k210 q p)) output]))
      (cubeScratch p q child) (leaves k210 q p) output (2 * (n0 * n1 * (n2 / 2 + 1))) (n0 * n1 * n2) context.batch
      fun y => blockRows (2 * (n2 / 2 + 1)) n2 (c2rRow n2 (conj (forwardRoot n2)))
        (lift (outerRow n0 n1 (n2 / 2 + 1) (conj (forwardRoot n0))) y) := by
    cases k210 with
    | none =>
      rw [← cubeScratchSwap]
      exact realTail ok.swap last real rows0 rows2
    | some k => exact realTail ok last real rows0 rows2
  have between : ∀ i, cubeScratch p q child ((leaves k210 q p).at i) := by
    intro i
    unfold leaves
    split
    · exact .inl rfl
    · exact .inr (.inl rfl)
  have size : n0 * n1 * (2 * (n2 / 2 + 1)) = 2 * (n0 * n1 * (n2 / 2 + 1)) := by ring
  have realLocal : RowLocal (n0 * n1 * (2 * (n2 / 2 + 1))) (n0 * n1 * n2)
      (blockRows (2 * (n2 / 2 + 1)) n2 (c2rRow n2 (conj (forwardRoot n2)))) := blockRowsLocal c2rRowLocal
  rw [size] at realLocal
  have lastLocal : RowLocal (2 * (n0 * n1 * (n2 / 2 + 1))) (n0 * n1 * n2) fun y =>
      blockRows (2 * (n2 / 2 + 1)) n2 (c2rRow n2 (conj (forwardRoot n2)))
        (lift (outerRow n0 n1 (n2 / 2 + 1) (conj (forwardRoot n0))) y) :=
    rowLocalComp (liftLocal outerLocal) realLocal
  have value : ∀ x, ∀ t < n0 * n1 * n2, blockRows (2 * (n2 / 2 + 1)) n2 (c2rRow n2 (conj (forwardRoot n2)))
      (lift (outerRow n0 n1 (n2 / 2 + 1) (conj (forwardRoot n0)))
        (lift (readRow (readingOf k021) n0 n1 (n2 / 2 + 1) (conj (forwardRoot n1)))
          (lift (opened (readingOf k021) n0 n1 (n2 / 2 + 1)) x))) t = c2r3Row n0 n1 n2 x t := by
    intro x t ht
    rw [← c2r3Passes x ht]
    refine realLocal _ _ (fun j hj => ?_) t ht
    rw [liftTwice, liftTwice]
    exact liftCongr (openedPlanes _ (by omega))
  have joined (stage : Stage (runPasses (axisPasses n1Fft k210 r1 (n0 * n1 * (n2 / 2 + 1)) context source q p))
      (cubeScratch p q child) source (leaves k210 q p) (n0 * n1 * (n2 / 2 + 1)) (n0 * n1 * (n2 / 2 + 1)) context.batch
      (readRow (readingOf k021) n0 n1 (n2 / 2 + 1) (conj (forwardRoot n1)))) :
      RowRun (fun m => runPasses (turnPasses k021 (n0 * n1 * (n2 / 2 + 1)) context input p) m >>=
        runPasses (axisPasses n1Fft k210 r1 (n0 * n1 * (n2 / 2 + 1)) context source q p)) (cubeScratch p q child) input
        (leaves k210 q p) (2 * (n0 * n1 * (n2 / 2 + 1))) (2 * (n0 * n1 * (n2 / 2 + 1))) context.batch
        fun x => lift (readRow (readingOf k021) n0 n1 (n2 / 2 + 1) (conj (forwardRoot n1)))
          (lift (opened (readingOf k021) n0 n1 (n2 / 2 + 1)) x) := by
    cases k021 with
    | none =>
      refine stage.run.congr fun x k _ => congrFun (congrArg _ ?_) k
      exact (scalarsInterleaved x).symm
    | some k => exact head.comp stage.run (liftLocal stage.rowLocal) fun _ _ _ _ => .inl rfl
  have pulse : Pulses (lift (opened (readingOf k021) n0 n1 (n2 / 2 + 1))) (readingOf k021) n0 n1 (n2 / 2 + 1)
      (scalars fun j => if j = 0 then 1 else 0) fun k2 => if k2 = 0 then 1 else 0 := by
    intro i0 h0 i1 h1 k2 h2
    unfold lift
    rw [interleavedScalars, interleavedScalars]
    exact openedPulse h0 h1 h2
  unfold inversePasses
  rw [runPassesAppend, runPassesAppend]
  refine fusedIff head joined
    (fun turned => middleTurns q p mid turned entry ok.apart.symm sourceKept ok.secondKept sub (fun _ => .inr (.inl rfl)) rows1)
    (fun turned => middleStores q p mid turned entry sourceKept ok.secondKept sub rows1) tail between
    (liftLocal openedLocal) lastLocal value (fun k _ => scalarsZero openedZero k) ?_ pulse
    (fun k2 => by split <;> norm_num) (by simp) (c2rDetects outers length (forwardRootHalf length)) middles (Nat.succ_pos _)
  exact fun t _ => c2r3Zero t

end Inverse

section Nodes
variable {context : Context3d} {child : Address → Prop} {input output : Address}

structure Raw3DRealLeafNode.InverseOk (node : Raw3DRealLeafNode ℝ) (child : Address → Prop) (input output : Address) :
    Prop where
  turn021 : ∀ k, node.inverse021 = some k → k.Permutes .a021 node.n0 node.n1 (node.n2 / 2 + 1)
  n1 : MiddleOk node.n1Fft node.kernel210 (readingOf node.inverse021) child node.n0 node.n1 (node.n2 / 2 + 1)
    (conj (forwardRoot node.n1))
  n0 : OuterOk node.n0Fft none child node.n0 node.n1 (node.n2 / 2 + 1) (conj (forwardRoot node.n0))
  n2 : node.n2RealFft.Computes child 0 0 (2 * (node.n2 / 2 + 1)) node.n2 (c2rRow node.n2 (conj (forwardRoot node.n2)))
  buffers : Buffers node.temp1 node.temp2 input output child
  fused : node.layout = .legacy ∧ node.fusedStore = true ∨ node.layout = .fusedStore
  inverse : node.inverse = true
  positive : 0 < node.n0 ∧ 0 < node.n1 ∧ 0 < node.n2

theorem Raw3DRealLeafNode.inversePassesEq {node : Raw3DRealLeafNode ℝ}
    (fused : node.layout = .legacy ∧ node.fusedStore = true ∨ node.layout = .fusedStore) (inverse : node.inverse = true) :
    node.passes context input output =
      inversePasses node.n1Fft node.n0Fft node.n2RealFft node.inverse021 node.kernel210 none
        (context.batch * node.n0 * (node.n2 / 2 + 1)) (context.batch * node.n1 * (node.n2 / 2 + 1))
        (context.batch * node.n0 * node.n1) (node.n0 * node.n1 * (node.n2 / 2 + 1)) context node.temp1 node.temp2 input
        output := by
  unfold passes kernel210 inverse021
  rcases fused with ⟨layout, stores⟩ | layout
  · rw [layout, if_pos rfl]
    unfold legacyPasses
    rw [inverse, stores]
    cases node.n1StridedInput <;> cases node.perm210 <;> rfl
  · rw [layout, if_neg (by decide)]
    unfold laidOutPasses
    rw [inverse, layout]
    rfl

theorem Raw3DRealLeafNode.inverseIff {node : Raw3DRealLeafNode ℝ} (ok : node.InverseOk child input output) :
    RowRun (node.execute context input output) (cubeScratch node.temp1 node.temp2 child) input output
      (2 * (node.n0 * node.n1 * (node.n2 / 2 + 1))) (node.n0 * node.n1 * node.n2) context.batch
      (c2r3Row node.n0 node.n1 node.n2) ↔
    (node.kernel210.isSome = false → context.batch ≤ 1 ∨ node.n1 * (node.n2 / 2 + 1) = 1) := by
  obtain ⟨outers, middles, length⟩ := ok.positive
  unfold execute
  rw [inversePassesEq ok.fused ok.inverse]
  exact fusedInverse ok.buffers ok.turn021 ok.n1 ok.n0 ok.n2 rfl rfl rfl outers middles length

structure Raw3DRealRTRTNode.InverseOk (node : Raw3DRealRTRTNode ℝ) (child : Address → Prop) (input output : Address) :
    Prop where
  turn021 : ∀ k, node.perm021 = some k → k.Permutes .a021 node.n0 node.n1 (node.n2 / 2 + 1)
  n1 : MiddleOk node.n1Fft node.perm210 .contiguous child node.n0 node.n1 (node.n2 / 2 + 1) (conj (forwardRoot node.n1))
  n0 : OuterOk node.n0Fft node.perm201 child node.n0 node.n1 (node.n2 / 2 + 1) (conj (forwardRoot node.n0))
  n2 : node.n2RealFft.Computes child 0 0 (2 * (node.n2 / 2 + 1)) node.n2 (c2rRow node.n2 (conj (forwardRoot node.n2)))
  buffers : Buffers node.temp1 node.temp2 input output child
  generated : node.Generated
  inverse : node.inverse = true
  turned : node.perm021.isSome = true ∧ node.perm210.isSome = true
  positive : 0 < node.n0 ∧ 0 < node.n1 ∧ 0 < node.n2

theorem Raw3DRealRTRTNode.inversePassesEq {node : Raw3DRealRTRTNode ℝ} (generated : node.Generated)
    (inverse : node.inverse = true) (turned : node.perm021.isSome = true ∧ node.perm210.isSome = true) :
    node.passes context input output =
      inversePasses node.n1Fft node.n0Fft node.n2RealFft node.perm021 node.perm210 node.perm201
        (context.batch * node.n0 * (node.n2 / 2 + 1)) (context.batch * node.n1 * (node.n2 / 2 + 1))
        (context.batch * node.n0 * node.n1) (node.n0 * node.n1 * (node.n2 / 2 + 1)) context node.temp1 node.temp2 input
        output := by
  have turn021 := node.permuteKernel generated.native context node.perm021 .a021
    (show node.n0 * node.n1 * (node.n2 / 2 + 1) = node.n0 * node.n1 * (node.n2 / 2 + 1) from rfl)
  have turn210 := node.permuteKernel generated.native context node.perm210 .a210
    (show node.n0 * (node.n2 / 2 + 1) * node.n1 = node.n0 * node.n1 * (node.n2 / 2 + 1) by ring)
  have turn201 := node.permuteKernel generated.native context node.perm201 .a201
    (show node.n1 * (node.n2 / 2 + 1) * node.n0 = node.n0 * node.n1 * (node.n2 / 2 + 1) by ring)
  unfold passes axisPasses
  simp only [generated.outer, inverse, turn021, turn210, turn201, Bool.false_eq_true, Bool.true_eq_false, if_false]
  unfold hasPerm210 hasPerm201
  rw [generated.native, generated.final]
  obtain ⟨first, second⟩ := turned
  obtain ⟨k021, present⟩ := Option.isSome_iff_exists.mp first
  obtain ⟨k210, present'⟩ := Option.isSome_iff_exists.mp second
  rw [present, present']
  cases node.perm201 <;> rfl

theorem Raw3DRealRTRTNode.inverseRun {node : Raw3DRealRTRTNode ℝ} (ok : node.InverseOk child input output) :
    RowRun (node.execute context input output) (cubeScratch node.temp1 node.temp2 child) input output
      (2 * (node.n0 * node.n1 * (node.n2 / 2 + 1))) (node.n0 * node.n1 * node.n2) context.batch
      (c2r3Row node.n0 node.n1 node.n2) := by
  obtain ⟨outers, middles, length⟩ := ok.positive
  have reading : readingOf node.perm021 = .contiguous := if_pos ok.turned.1
  unfold execute
  rw [inversePassesEq ok.generated ok.inverse ok.turned]
  refine (fusedInverse ok.buffers ok.turn021 (reading ▸ ok.n1) ok.n0 ok.n2 rfl rfl rfl outers middles length).mpr ?_
  intro absent
  rw [ok.turned.2] at absent
  cases absent

end Nodes

end FlagFft.ThreeDim
