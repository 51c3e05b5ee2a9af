import FlagFft.Compiled.Transforms

/-! Several plans in one process: nodes compiled one after another share the counter of buffers and nothing else, so
calls to them in any order do what the transforms would do on memory alone. -/
namespace FlagFft.Compiled
open Library.Dft

structure Job where
  plan : RawPlan
  direction : Direction
  batch : ℕ

def Job.length (job : Job) : ℕ := job.plan.length

noncomputable def Job.row (job : Job) : (ℕ → ℂ) → ℕ → ℂ := dft job.length (root job.direction job.length)

/- One execute of one of the plans. -/
structure Call where
  handle : ℕ
  source : Address
  target : Address
  batch : ℕ

section Programs

noncomputable def compileJobs (compiler : Compiler) : List Job → ℕ → Option (List RawNode × ℕ)
  | [], first => some ([], first)
  | job :: jobs, first => do
    let node ← compiler.compileRawNode job.plan job.direction job.batch first
    let (nodes, last) ← compileJobs compiler jobs node.next
    some (node :: nodes, last)

def uploads : List RawNode → State ℂ → State ℂ
  | [], s => s
  | node :: nodes, s => uploads nodes (node.upload s)

def runCall (nodes : List RawNode) (call : Call) : Program ℂ :=
  match nodes[call.handle]? with
  | some node => node.execute call.source call.target call.batch
  | none => fun _ => .error .invalidPlan

def runCalls (nodes : List RawNode) (calls : List Call) : Program ℂ := fun s =>
  calls.foldlM (fun s call => runCall nodes call s) s

end Programs

/- The same calls to transforms that keep nothing. -/
section Ideal

noncomputable def idealCall (jobs : List Job) (call : Call) (m : Memory ℂ) : Memory ℂ :=
  match jobs[call.handle]? with
  | some job => idealRows job.length job.length job.row call.source call.target call.batch m
  | none => m

noncomputable def idealCalls (jobs : List Job) (calls : List Call) (m : Memory ℂ) : Memory ℂ :=
  calls.foldl (fun m call => idealCall jobs call m) m

/- A call of a plan on buffers of the user, with a batch the plan has room for. -/
structure Call.Allowed (call : Call) (jobs : List Job) (own : ℕ → Prop) : Prop where
  handle : ∃ job, jobs[call.handle]? = some job ∧ call.batch ≤ job.batch
  compatible : Compatible call.source call.target
  source : ¬ own call.source.buffer
  target : ¬ own call.target.buffer

end Ideal

inductive CompiledJobs : List Job → List RawNode → List (State ℂ → Prop) → ℕ → ℕ → Prop
  | nil (first : ℕ) : CompiledJobs [] [] [] first first
  | cons {job jobs node nodes good goods first last} : Correct node good first job.length job.batch job.row →
      CompiledJobs jobs nodes goods node.next last → CompiledJobs (job :: jobs) (node :: nodes) (good :: goods) first last

section Jobs
variable {compiler : Compiler} {jobs : List Job} {nodes : List RawNode} {goods : List (State ℂ → Prop)} {first last : ℕ}

theorem CompiledJobs.grows (ok : CompiledJobs jobs nodes goods first last) : first ≤ last := by
  induction ok with
  | nil => exact le_rfl
  | cons node _ ih => exact node.grows.trans ih

theorem CompiledJobs.kept (ok : CompiledJobs jobs nodes goods first last) (s : State ℂ) :
    (∀ a, ¬ Between first last a.buffer → (uploads nodes s).memory a = s.memory a) ∧
      ∀ i, ¬ Between first last i → (uploads nodes s).ready i = s.ready i := by
  induction ok generalizing s with
  | nil => exact ⟨fun _ _ => rfl, fun _ _ => rfl⟩
  | cons node rest ih =>
    have grows := node.grows
    have more := rest.grows
    refine ⟨fun a outside => ?_, fun i outside => ?_⟩
    · exact ((ih _).1 a fun inner => outside ⟨grows.trans inner.1, inner.2⟩).trans
        (node.memory s a fun inner => outside ⟨inner.1, inner.2.trans_le more⟩)
    · exact ((ih _).2 i fun inner => outside ⟨grows.trans inner.1, inner.2⟩).trans
        (node.ready s i fun inner => outside ⟨inner.1, inner.2.trans_le more⟩)

/- The invariants are about the buffers of the nodes. -/
theorem CompiledJobs.keeps (ok : CompiledJobs jobs nodes goods first last) {s s' : State ℂ}
    (memory : ∀ a, Between first last a.buffer → s'.memory a = s.memory a)
    (ready : ∀ i, Between first last i → s'.ready i = s.ready i) (start : ∀ good ∈ goods, good s) : ∀ good ∈ goods, good s' := by
  induction ok with
  | nil => exact fun _ member => absurd member List.not_mem_nil
  | cons here rest ih =>
    have grows := here.grows
    have more := rest.grows
    intro good member
    rcases List.mem_cons.mp member with rfl | later
    · exact here.transforms.keeps s s' (fun a inner => memory a ⟨inner.1, inner.2.trans_le more⟩)
        (fun i inner => ready i ⟨inner.1, inner.2.trans_le more⟩) (start good List.mem_cons_self)
    · exact ih (fun a inner => memory a ⟨grows.trans inner.1, inner.2⟩) (fun i inner => ready i ⟨grows.trans inner.1, inner.2⟩)
        (fun g among => start g (List.mem_cons_of_mem _ among)) good later

/- What is uploaded later stays out of what was uploaded before. -/
theorem CompiledJobs.fresh (ok : CompiledJobs jobs nodes goods first last) (s : State ℂ) :
    ∀ good ∈ goods, good (uploads nodes s) := by
  induction ok generalizing s with
  | nil => exact fun _ member => absurd member List.not_mem_nil
  | @cons _ _ node _ _ _ _ _ here rest ih =>
    intro good member
    rcases List.mem_cons.mp member with rfl | later
    · have kept := rest.kept (node.upload s)
      exact here.transforms.keeps _ _ (fun a inner => kept.1 a fun outer => absurd inner.2 (Nat.not_lt.mpr outer.1))
        (fun i inner => kept.2 i fun outer => absurd inner.2 (Nat.not_lt.mpr outer.1)) (here.fresh s)
    · exact ih _ good later

/- One call keeps the invariants of all nodes, also of those it is not a call of. -/
theorem CompiledJobs.step (ok : CompiledJobs jobs nodes goods first last) {s : State ℂ} {handle batch : ℕ}
    {src dst : Address} (good : ∀ good ∈ goods, good s) {job : Job} (found : jobs[handle]? = some job)
    (small : batch ≤ job.batch) (compatible : Compatible src dst) (source : ¬ Between first last src.buffer)
    (target : ¬ Between first last dst.buffer) :
    ∃ s', runCall nodes ⟨handle, src, dst, batch⟩ s = .ok s' ∧ (∀ good ∈ goods, good s') ∧
      Turned (Between first last) (src.row job.length) (dst.row job.length) job.length batch job.row s s' := by
  induction ok generalizing handle with
  | nil => simp at found
  | @cons head _ node _ inv _ first last here rest ih =>
    have grows := here.grows
    have more := rest.grows
    have inNode : ∀ i, Between first node.next i → Between first last i := fun i inner => ⟨inner.1, inner.2.trans_le more⟩
    have inRest : ∀ i, Between node.next last i → Between first last i := fun i inner => ⟨grows.trans inner.1, inner.2⟩
    cases handle with
    | zero =>
      obtain rfl : head = job := by simpa using found
      obtain ⟨s', run, after, turned⟩ := here.transforms.runs src dst batch small compatible
        (fun inner => source (inNode _ inner)) (fun inner => target (inNode _ inner)) s (good inv List.mem_cons_self)
      refine ⟨s', run, ?_, turned.writes, fun a outside => turned.frame a fun inner => outside (inNode _ inner),
        fun i outside => turned.flags i fun inner => outside (inNode _ inner)⟩
      have untouched := rest.keeps (fun a inner => turned.frame a
          (fun outer => absurd outer.2 (Nat.not_lt.mpr inner.1)) fun b _ k _ same => target (inRest _ (by rwa [same] at inner)))
        (fun i inner => turned.flags i fun outer => absurd outer.2 (Nat.not_lt.mpr inner.1))
        fun g member => good g (List.mem_cons_of_mem _ member)
      intro other member
      rcases List.mem_cons.mp member with rfl | later
      · exact after
      · exact untouched other later
    | succ handle =>
      obtain ⟨s', run, after, turned⟩ := ih (fun g member => good g (List.mem_cons_of_mem _ member)) (by simpa using found)
        (fun inner => source (inRest _ inner)) fun inner => target (inRest _ inner)
      refine ⟨s', run, ?_, turned.writes, fun a outside => turned.frame a fun inner => outside (inRest _ inner),
        fun i outside => turned.flags i fun inner => outside (inRest _ inner)⟩
      intro other member
      rcases List.mem_cons.mp member with rfl | later
      · exact here.transforms.keeps s s' (fun a inner => turned.frame a
          (fun outer => absurd inner.2 (Nat.not_lt.mpr outer.1)) fun b _ k _ same => target (inNode _ (by rwa [same] at inner)))
          (fun i inner => turned.flags i fun outer => absurd inner.2 (Nat.not_lt.mpr outer.1)) (good _ List.mem_cons_self)
      · exact after other later

theorem jobsCompile (works : compiler.Works) (sound : ∀ job ∈ jobs, job.plan.Sound ∧ 0 < job.batch)
    (exact_ : ∀ job ∈ jobs, compiler.Exact job.plan.radices) (first : ℕ) :
    ∃ nodes last goods, compileJobs compiler jobs first = some (nodes, last) ∧ CompiledJobs jobs nodes goods first last := by
  induction jobs generalizing first with
  | nil => exact ⟨[], first, [], rfl, .nil first⟩
  | cons job jobs ih =>
    obtain ⟨good, positive⟩ := sound job List.mem_cons_self
    obtain ⟨node, inv, run, ok⟩ := compiles works good (exact_ job List.mem_cons_self) job.direction positive first
    obtain ⟨nodes, last, goods, rest, oks⟩ := ih (fun j member => sound j (List.mem_cons_of_mem _ member))
      (fun j member => exact_ j (List.mem_cons_of_mem _ member)) node.next
    refine ⟨node :: nodes, last, inv :: goods, ?_, .cons ok oks⟩
    rw [compileJobs, run, Option.bind_eq_bind, Option.bind_some, rest]
    rfl

end Jobs

section Runs
variable {jobs : List Job} {nodes : List RawNode} {goods : List (State ℂ → Prop)} {first last : ℕ}

/- Outside of what the nodes own, the device memory is that of the ideal run. -/
def Agrees (own : ℕ → Prop) (s : State ℂ) (m : Memory ℂ) : Prop := ∀ a, ¬ own a.buffer → s.memory a = m a

theorem agreesStep {s s' : State ℂ} {m : Memory ℂ} {job : Job} {call : Call} {own : ℕ → Prop} (agrees : Agrees own s m)
    (found : jobs[call.handle]? = some job) (source : ¬ own call.source.buffer)
    (turned : Turned own (call.source.row job.length) (call.target.row job.length) job.length call.batch job.row s s') :
    Agrees own s' (idealCall jobs call m) := by
  intro a outside
  have ideal : RowMap (idealRows job.length job.length job.row call.source call.target call.batch) (fun _ => False)
      call.source call.target job.length job.length call.batch job.row := idealRowsMap
  rw [idealCall, found]
  by_cases inside : ∃ b < call.batch, ∃ k < job.length, a = call.target.row job.length b k
  · obtain ⟨b, hb, k, hk, rfl⟩ := inside
    rw [turned.writes b hb k hk]
    refine Eq.trans ?_ (ideal.writes m b hb k hk).symm
    exact dftCongr fun j _ => agrees (call.source.row job.length b j) source
  · have beside : ∀ b < call.batch, ∀ k < job.length, a ≠ call.target.row job.length b k :=
      fun b hb k hk same => inside ⟨b, hb, k, hk, same⟩
    rw [turned.frame a outside beside]
    exact (agrees a outside).trans (ideal.frame m a not_false beside).symm

theorem callsAgree (ok : CompiledJobs jobs nodes goods first last) {calls : List Call}
    (allowed : ∀ call ∈ calls, call.Allowed jobs (Between first last)) {s : State ℂ} {m : Memory ℂ}
    (good : ∀ good ∈ goods, good s) (agrees : Agrees (Between first last) s m) :
    ∃ s', runCalls nodes calls s = .ok s' ∧ (∀ good ∈ goods, good s') ∧
      Agrees (Between first last) s' (idealCalls jobs calls m) := by
  induction calls generalizing s m with
  | nil => exact ⟨s, rfl, good, agrees⟩
  | cons call calls ih =>
    obtain ⟨⟨job, found, small⟩, compatible, source, target⟩ := allowed call List.mem_cons_self
    obtain ⟨s', run, good', turned⟩ := ok.step good found small compatible source target
    obtain ⟨s'', runs, good'', agrees'⟩ := ih (fun c member => allowed c (List.mem_cons_of_mem _ member)) good'
      (agreesStep agrees found source turned)
    refine ⟨s'', ?_, good'', agrees'⟩
    rw [runCalls, List.foldlM_cons, run]
    exact runs

noncomputable def exactCompiler : Compiler where
  adaptor := ⟨false, 65535⟩
  target := ⟨false, false, false⟩
  elementBytes := 8
  schedule := ascending
  codelets direction f := dft f (root direction f)
  shared _ := 0

def sevenPlan : RawPlan := .rader 7 3 [1, 3, 2, 6, 4, 5] (.leaf Leaf.twoByThree)

def threePlan : RawPlan := .bluestein 3 .generic (.stockham [4, 2] [])

/- Five points or more for three: the leaf of six takes the boundary in. -/
def foldedThree : RawPlan := .bluestein 3 (.leaf Leaf.twoByThree 1 2) (.leaf Leaf.twoByThree)

theorem sevenSound : sevenPlan.Sound := by
  refine ⟨by decide, by decide, by decide, ?_, by decide, by decide, trivial⟩
  exact (orderOf_eq_iff (by decide)).mpr (by decide)

theorem threeSound : threePlan.Sound := ⟨by decide, by decide, by decide, trivial, by decide, by decide⟩

theorem foldedSound : foldedThree.Sound := ⟨by decide, by decide, by decide, ⟨rfl, by decide, by decide⟩, trivial⟩

/- The two directions undo each other up to the length. -/
def opposite : Direction → Direction
  | .forward => .inverse
  | .inverse => .forward

theorem oppositeRoot (direction : Direction) (n : ℕ) : root (opposite direction) n = (root direction n)⁻¹ := by
  cases direction with
  | forward => exact forwardRootInverse
  | inverse => rw [opposite, root, root, forwardRootInverse, inv_inv]

theorem dftOpposite {n k : ℕ} (positive : 0 < n) (direction : Direction) (x : ℕ → ℂ) (inside : k < n) :
    dft n (root (opposite direction) n) (dft n (root direction n) x) k = n * x k := by
  have cast : (n : ℂ) ≠ 0 := Nat.cast_ne_zero.mpr positive.ne'
  have primitive : IsPrimitiveRoot (root direction n) n := rootPrimitive positive
  have back := Library.Inverse.idftDft primitive cast x inside
  rw [Library.Inverse.idft, inv_mul_eq_iff_eq_mul₀ cast] at back
  rw [oppositeRoot]
  exact back

end Runs

end FlagFft.Compiled
