import FlagFft.Direct.Kernels
import Mathlib.Data.Nat.Size
import Mathlib.Data.ZMod.Basic

/-! Every form of the direct transform computes the transform of every line of its batch, under any schedule; where one
program holds a whole line the line may be overwritten in place. -/
namespace FlagFft.Direct
open Library.Indexing Library.Stores Library.Dft Library.Summation FlagFft.TwoDim

section InPlace
variable {R τ : Type*} {kernel : ElementKernel R τ} {grid : ℕ} {src dst : Layout} {nIn nOut rows : ℕ}
  {row : (ℕ → R) → ℕ → R} {find : ℕ → ℕ → ℕ × τ}

def storeProgram (kernel : ElementKernel R τ) (p : ℕ) (m : Memory R) : Memory R := commitAll m (kernel.stores p m)

/- What a program leaves in the lines it holds, when nothing else has touched them. -/
theorem programWrites (ok : kernel.Writes grid src dst nOut rows row find) (distinct : dst.Injective nOut rows) {p b k : ℕ}
    (inGrid : p < grid) (hb : b < rows) (hk : k < nOut) (here : (find b k).1 = p) (m : Memory R) :
    storeProgram kernel p m (dst b k) = row (fun j => m (src b j)) k := by
  obtain ⟨_, thread, place⟩ := ok.onto b hb k hk
  rw [here] at thread place
  refine commitAllWritten ⟨_, List.mem_map.mpr ⟨_, thread, rfl⟩, place⟩ fun s stored same => ?_
  obtain ⟨t, ht, rfl⟩ := List.mem_map.mp stored
  obtain ⟨b', hb', k', hk', _, place', value⟩ := ok.place p inGrid t ht
  obtain ⟨rfl, rfl⟩ := distinct b' hb' b hb k' hk' k hk (place'.symm.trans same)
  exact value m

/- A line may lie where its image goes, if one program holds all of it. -/
theorem writesInPlace (ok : kernel.Writes grid src dst nOut rows row find) (rowLocal : RowLocal nIn nOut row)
    (distinct : dst.Injective nOut rows)
    (aliasing : ∀ b < rows, ∀ b' < rows, ∀ j < nIn, ∀ k < nOut, src b j = dst b' k → b = b')
    (whole : ∀ b < rows, ∀ k < nOut, ∀ k' < nOut, (find b k).1 = (find b k').1) (schedule : Schedule) :
    LayoutMap (kernel.launch grid schedule) (fun _ => False) src dst nOut rows row := by
  have frame : ∀ p ∈ schedule.order grid, ∀ m a, ¬ False → ¬ (∃ b < rows, ∃ k < nOut, (find b k).1 = p ∧ a = dst b k) →
      storeProgram kernel p m a = m a := by
    intro p member m a _ outside
    refine commitAllUntouched fun s stored same => ?_
    obtain ⟨t, ht, rfl⟩ := List.mem_map.mp stored
    obtain ⟨b, hb, k, hk, found, place, _⟩ := ok.place p (schedule.mem.mp member) t ht
    exact outside ⟨b, hb, k, hk, congrArg Prod.fst found, same.symm.trans place⟩
  constructor
  · intro m b hb k hk
    have independent : Independent (storeProgram kernel) (schedule.order grid) m (fun _ => False)
        (fun p a => ∃ b < rows, ∃ k < nOut, (find b k).1 = p ∧ a = dst b k)
        (fun a v => ∀ b < rows, ∀ k < nOut, a = dst b k → v = row (fun j => m (src b j)) k) := by
      refine ⟨(schedule.complete grid).nodup_iff.mpr List.nodup_range, ?_, fun _ _ _ _ => not_false, frame, ?_⟩
      · rintro p _ q _ apart a ⟨b, hb, k, hk, rfl, rfl⟩ ⟨b', hb', k', hk', rfl, same⟩
        obtain ⟨rfl, rfl⟩ := distinct b hb b' hb' k hk k' hk' same
        exact apart rfl
      · rintro p member m' fresh a ⟨b, hb, k, hk, here, rfl⟩ b' hb' k' hk' same
        obtain ⟨rfl, rfl⟩ := distinct b hb b' hb' k hk k' hk' same
        rw [programWrites ok distinct (schedule.mem.mp member) hb hk here m']
        refine rowLocal _ _ (fun j hj => fresh _ not_false ?_) k hk
        -- another program holds no element of this line
        rintro q _ other ⟨b', hb', k', hk', there, same⟩
        obtain rfl := aliasing b hb b' hb' j hj k' hk' same
        exact other (there.symm.trans ((whole b hb k' hk' k hk).trans here))
    have inside : (find b k).1 ∈ schedule.order grid := schedule.mem.mpr (ok.onto b hb k hk).1
    exact launchWrites independent inside ⟨b, hb, k, hk, rfl, rfl⟩ b hb k hk rfl
  · intro m a kept outside
    refine launchFrame (fun _ => False) (fun p a => ∃ b < rows, ∃ k < nOut, (find b k).1 = p ∧ a = dst b k) frame kept ?_
    rintro p _ ⟨b, hb, k, hk, _, same⟩
    exact outside b hb k hk same

end InPlace

section Values
variable {R : Type*} [CommRing R] {w : R} {n k : ℕ} {x : ℕ → R}

theorem reductionValue (reduction : Reduction) (inside : k < n) :
    reduction.value n (buildDftMatrix w n) x k = dft n w x k := by
  cases reduction with
  | tiles =>
      rw [Reduction.value, tileSumEq (by decide)]
      exact matrixSum fun j _ => by rw [matrixEntry inside, Nat.mul_comm]
  | compensated =>
      rw [Reduction.value, compensatedSumEq]
      exact matrixSum fun j hj => matrixEntry hj

theorem cubeValueDft (inside : k < n) : cubeValue n (buildRawCubeDftTables w n) x k = dft n w x k := by
  rw [cubeValue, tileSumEq (by decide)]
  exact matrixSum fun j hj => cubeEntry hj inside

theorem cubeColValue {nbatch : ℕ} (inside : k < 64) :
    (cubeColKernel (buildRawCubeDftTables w 64) nbatch).value x k = dft 64 w x k := by
  simp only [cubeColKernel]
  rw [tileSumEq (by decide)]
  refine Eq.trans (Finset.sum_congr rfl fun j _ => mul_comm _ _) (matrixSum fun j hj => ?_)
  rw [cubeEntry inside hj, Nat.mul_comm]

end Values

section Covering
variable {R : Type*} [CommRing R] {n nbatch : ℕ} {table : ℕ → R}

theorem blockOfLines {b lines : ℕ} (positive : 0 < lines) (hb : b < nbatch) : b / lines < ceilDiv nbatch lines :=
  (ltCeilDiv positive).mpr ((Nat.div_mul_le_self b lines).trans_lt hb)

theorem directDftCovers (reduction : Reduction) : (directDftKernel n table nbatch reduction).Covers nbatch where
  lines := Nat.one_pos
  outputs := Nat.two_pow_pos _
  live x l lane := by
    simp only [directDftKernel] at lane ⊢
    rw [decide_eq_true_eq, Nat.lt_one_iff.mp lane, Nat.mul_one, Nat.add_zero]
  reach b hb := blockOfLines Nat.one_pos hb
  wide k hk := by
    have small : k < (directDftKernel n table nbatch reduction).outputs := lt_of_lt_of_le hk (leCeilPowerOfTwo n)
    exact (Nat.div_eq_of_lt small).trans_lt Nat.one_pos

theorem sixteenLive {x l : ℕ} : decide (x * 16 + l < nbatch) = true ↔ x * 16 + l < nbatch := decide_eq_true_iff

theorem cubeDftCovers : (cubeDftKernel n table nbatch).Covers nbatch where
  lines := Nat.succ_pos 15
  outputs := Nat.two_pow_pos _
  live _ _ _ := sixteenLive
  reach b hb := blockOfLines (Nat.succ_pos 15) hb
  wide k hk := by
    have power : n - 1 < 2 ^ (n - 1).size := Nat.lt_size_self (n - 1)
    have small : k < (cubeDftKernel n table nbatch).outputs := (Nat.le_sub_one_of_lt hk).trans_lt power
    exact (Nat.div_eq_of_lt small).trans_lt Nat.one_pos

theorem cubeTransposedCovers : (cubeTransposedKernel table nbatch).Covers nbatch where
  lines := Nat.succ_pos 15
  outputs := Nat.succ_pos _
  live _ _ _ := sixteenLive
  reach _ hb := blockOfLines (Nat.succ_pos 15) hb
  wide _ hk := (Nat.div_eq_of_lt hk).trans_lt Nat.one_pos

theorem cubeRowCovers : (cubeRowKernel table nbatch).Covers nbatch where
  lines := Nat.succ_pos 15
  outputs := Nat.succ_pos _
  live _ _ _ := sixteenLive
  reach _ hb := blockOfLines (Nat.succ_pos 15) hb
  wide _ hk := Nat.div_lt_of_lt_mul hk

/- The blocks are those of whole matrices only. -/
theorem cubeColCovers (matrices : 64 ∣ nbatch) : (cubeColKernel table nbatch).Covers nbatch where
  lines := Nat.succ_pos 15
  outputs := Nat.succ_pos _
  live x l lane := by
    obtain ⟨count, rfl⟩ := matrices
    simp only [cubeColKernel] at lane ⊢
    rw [decide_eq_true_iff]
    omega
  reach b hb := blockOfLines (Nat.succ_pos 15) hb
  wide k hk := Nat.div_lt_of_lt_mul hk

end Covering

inductive DirectDftForm where
  | directDft (reduction : Reduction)
  | strided (reduction : Reduction) (outerStride : ℕ)
  | cube
  | cubeStrided (outerStride : ℕ)
  | cubeTransposed
  | cube2dRow
  | cube2dCol
  deriving DecidableEq, Repr

namespace DirectDftForm

/- What the generator accepts, and whole matrices where a launch works on columns of matrices. -/
def Supported (n nbatch : ℕ) : DirectDftForm → Prop
  | directDft _ => True
  | strided _ outerStride => 0 < outerStride
  | cube => 16 ≤ n ∧ n ≤ 64
  | cubeStrided outerStride => (16 ≤ n ∧ n ≤ 64) ∧ 0 < outerStride
  | cubeTransposed => n = 64
  | cube2dRow => n = 64
  | cube2dCol => n = 64 ∧ 64 ∣ nbatch

/- The forms whose lines are the rows of a batch, on both sides. -/
def Rows (n : ℕ) : DirectDftForm → Prop
  | directDft _ => True
  | cube => 16 ≤ n ∧ n ≤ 64
  | strided _ _ | cubeStrided _ | cubeTransposed | cube2dRow | cube2dCol => False

def source (n : ℕ) (p : Address) : DirectDftForm → Layout
  | directDft _ | cube | cubeTransposed | cube2dRow => p.row n
  | strided _ outerStride | cubeStrided outerStride => columnLayout p n outerStride
  | cube2dCol => columnLayout p 64 64

def target (n : ℕ) (p : Address) : DirectDftForm → Layout
  | directDft _ | cube | cube2dRow => p.row n
  | strided _ outerStride | cubeStrided outerStride => columnLayout p n outerStride
  | cubeTransposed | cube2dCol => columnLayout p 64 64

/- A launch in place is sound where one program holds a line. -/
def Placed (src dst : Address) : DirectDftForm → Prop
  | directDft _ | strided _ _ | cube | cubeStrided _ => Compatible src dst
  | cubeTransposed | cube2dRow | cube2dCol => src.buffer ≠ dst.buffer

section Launch
variable {R : Type*} [CommRing R]

/- The tables uploaded for a form. -/
def tables (w : R) (n : ℕ) : DirectDftForm → ℕ → R
  | directDft _ | strided _ _ => buildDftMatrix w n
  | cube | cubeStrided _ | cubeTransposed | cube2dRow | cube2dCol => buildRawCubeDftTables w n

def kernel (n : ℕ) (table : ℕ → R) (nbatch : ℕ) : DirectDftForm → LineKernel R
  | directDft reduction | strided reduction _ => directDftKernel n table nbatch reduction
  | cube | cubeStrided _ => cubeDftKernel n table nbatch
  | cubeTransposed => cubeTransposedKernel table nbatch
  | cube2dRow => cubeRowKernel table nbatch
  | cube2dCol => cubeColKernel table nbatch

def launch (form : DirectDftForm) (w : R) (n nbatch : ℕ) (src dst : Address) (schedule : Schedule) : Memory R → Memory R :=
  (form.kernel n (form.tables w n) nbatch).launch (form.source n src) (form.target n dst) schedule

end Launch

section Rows
variable {form : DirectDftForm} {n : ℕ}

theorem Rows.layouts (rows : form.Rows n) (p : Address) : form.source n p = p.row n ∧ form.target n p = p.row n := by
  cases form with
  | directDft | cube => exact ⟨rfl, rfl⟩
  | strided | cubeStrided | cubeTransposed | cube2dRow | cube2dCol => exact rows.elim

theorem Rows.supported (rows : form.Rows n) (nbatch : ℕ) : form.Supported n nbatch := by
  cases form with
  | directDft => trivial
  | cube => exact rows
  | strided | cubeStrided | cubeTransposed | cube2dRow | cube2dCol => exact rows.elim

theorem Rows.placed (rows : form.Rows n) {src dst : Address} (compatible : Compatible src dst) : form.Placed src dst := by
  cases form with
  | directDft | cube => exact compatible
  | strided | cubeStrided | cubeTransposed | cube2dRow | cube2dCol => exact rows.elim

end Rows

end DirectDftForm

section Maps
variable {R : Type*} [CommRing R] {w : R} {n nbatch : ℕ} {src dst : Address} {form : DirectDftForm}

theorem columnInjective {p : Address} {n0 n1 rows : ℕ} (positive : 0 < n1) : (columnLayout p n0 n1).Injective n0 rows := by
  intro b _ b' _ k hk k' hk' same
  have inside : ∀ {r i}, i < n0 → i * n1 + r % n1 < n0 * n1 := fun hi => mulAddLt hi (Nat.mod_lt _ positive)
  obtain ⟨matrix, element⟩ := (Address.rowInj (inside hk) (inside hk')).mp same
  obtain ⟨rfl, column⟩ := mulAddInj (Nat.mod_lt b positive) (Nat.mod_lt b' positive) element
  exact ⟨by rw [← Nat.div_add_mod b n1, matrix, column, Nat.div_add_mod], rfl⟩

theorem targetInjective (supported : form.Supported n nbatch) : (form.target n dst).Injective n nbatch := by
  cases form with
  | directDft | cube | cube2dRow => exact Address.rowInjective
  | strided reduction outerStride => exact columnInjective supported
  | cubeStrided outerStride => exact columnInjective supported.2
  | cubeTransposed =>
      obtain rfl : n = 64 := supported
      exact columnInjective (by decide)
  | cube2dCol =>
      obtain rfl : n = 64 := supported.1
      exact columnInjective (by decide)

theorem formCovers (supported : form.Supported n nbatch) (table : ℕ → R) : (form.kernel n table nbatch).Covers nbatch := by
  cases form with
  | directDft reduction | strided reduction => exact directDftCovers reduction
  | cube | cubeStrided => exact cubeDftCovers
  | cubeTransposed => exact cubeTransposedCovers
  | cube2dRow => exact cubeRowCovers
  | cube2dCol => exact cubeColCovers supported.2

theorem formLength (supported : form.Supported n nbatch) (table : ℕ → R) : (form.kernel n table nbatch).length = n := by
  cases form with
  | directDft | strided | cube | cubeStrided => rfl
  | cubeTransposed | cube2dRow => exact supported.symm
  | cube2dCol => exact supported.1.symm

theorem formValue (supported : form.Supported n nbatch) (x : ℕ → R) {k : ℕ} (inside : k < n) :
    (form.kernel n (form.tables w n) nbatch).value x k = dft n w x k := by
  cases form with
  | directDft reduction | strided reduction => exact reductionValue reduction inside
  | cube | cubeStrided => exact cubeValueDft inside
  | cubeTransposed | cube2dRow =>
      obtain rfl : n = 64 := supported
      exact cubeValueDft inside
  | cube2dCol =>
      obtain rfl : n = 64 := supported.1
      exact cubeColValue inside

theorem formWrites (supported : form.Supported n nbatch) :
    ((form.kernel n (form.tables w n) nbatch).element (form.source n src) (form.target n dst)).Writes
      ((form.kernel n (form.tables w n) nbatch).gridX * (form.kernel n (form.tables w n) nbatch).gridY) (form.source n src)
      (form.target n dst) n nbatch (dft n w) (form.kernel n (form.tables w n) nbatch).find := by
  have length := formLength supported (form.tables w n)
  have writes := @LineKernel.writes _ _ (form.source n src) (form.target n dst) nbatch (dft n w)
    (formCovers supported (form.tables w n)) fun x k inside => formValue supported x (length ▸ inside)
  rwa [length] at writes

theorem layoutsApart (apart : src.buffer ≠ dst.buffer) (b j b' k : ℕ) : form.source n src b j ≠ form.target n dst b' k := by
  cases form <;> exact Address.atApart apart _ _

theorem dftLineLocal : RowLocal n n (dft n w) := fun _ _ same _ _ => dftCongr same

omit [CommRing R] in
/- A form whose programs hold whole lines. -/
theorem wholeLines {kernel : LineKernel R} (single : kernel.gridY = 1) (covers : kernel.Covers nbatch) {b k k' : ℕ}
    (hk : k < kernel.length) (hk' : k' < kernel.length) : (kernel.find b k).1 = (kernel.find b k').1 := by
  have first : ∀ {i}, i < kernel.length → i / kernel.outputs = 0 := fun inside =>
    Nat.lt_one_iff.mp (single ▸ covers.wide _ inside)
  unfold LineKernel.find
  rw [first hk, first hk']

theorem formInPlace (supported : form.Supported n nbatch) (p : Address)
    (single : (form.kernel n (form.tables w n) nbatch).gridY = 1) (same : form.source n p = form.target n p)
    (schedule : Schedule) : LayoutMap (form.launch w n nbatch p p schedule) (fun _ => False) (form.source n p)
      (form.target n p) n nbatch (dft n w) := by
  have length := formLength supported (form.tables w n)
  refine writesInPlace (formWrites supported) dftLineLocal (targetInjective supported) ?_ ?_ schedule
  · intro b hb b' hb' j hj k hk here
    rw [same] at here
    exact (targetInjective supported b hb b' hb' j hj k hk here).1
  · exact fun b _ k hk k' hk' => wholeLines single (formCovers supported _) (hk.trans_eq length.symm) (hk'.trans_eq length.symm)

theorem formMap (supported : form.Supported n nbatch) (placed : form.Placed src dst) (schedule : Schedule) :
    LayoutMap (form.launch w n nbatch src dst schedule) (fun _ => False) (form.source n src) (form.target n dst) n nbatch
      (dft n w) := by
  by_cases apart : src.buffer = dst.buffer
  · cases form with
    | directDft | strided | cube | cubeStrided =>
        obtain rfl := placed.resolve_right (not_not_intro apart)
        exact formInPlace supported src rfl rfl schedule
    | cubeTransposed | cube2dRow | cube2dCol => exact absurd apart placed
  · exact (formWrites supported).layoutMap (targetInjective supported) (layoutsApart apart) schedule _

end Maps

/- CompiledRawDirectDftNode, and for a strided form CompiledRawStridedDirectDftNode, which copies nothing. -/
structure DirectDftNode where
  length : ℕ
  form : DirectDftForm
  inputCopy : Address
  compiledBatch : ℕ

namespace DirectDftNode
variable {R : Type*} [CommRing R] (node : DirectDftNode) (w : R) (input output : Address) (batch : ℕ) (schedule : Schedule)

def copies : Bool :=
  match node.form with
  | .strided _ _ | .cubeStrided _ => false
  | _ => true

/- The copy takes all input_copy has room for. -/
def execute (m : Memory R) : Memory R :=
  if node.copies = true ∧ input = output then
    node.form.launch w node.length batch node.inputCopy output schedule
      (copyDeviceToDevice node.inputCopy input (node.compiledBatch * node.length) m)
  else node.form.launch w node.length batch input output schedule m

end DirectDftNode

section Nodes
variable {R : Type*} [CommRing R] {w : R} {n nbatch : ℕ} {form : DirectDftForm} {node : DirectDftNode} {input output : Address}

omit [CommRing R] in
/- A step that reads its lines from a copy of them. -/
theorem copiedMap {op : Memory R → Memory R} {scratch : Address → Prop} {copy : Address} {dst : Layout} {place : ℕ → ℕ → ℕ}
    {count nIn nOut rows : ℕ} {row : (ℕ → R) → ℕ → R} (input : Address) (rowLocal : RowLocal nIn nOut row)
    (map : LayoutMap op scratch (fun b j => copy.at (place b j)) dst nOut rows row)
    (inside : ∀ b < rows, ∀ j < nIn, place b j < count) :
    LayoutMap (fun m => op (copyDeviceToDevice copy input count m)) (fun a => scratch a ∨ a.buffer = copy.buffer)
      (fun b j => input.at (place b j)) dst nOut rows row where
  writes m b hb k hk := by
    rw [map.writes _ b hb k hk]
    exact rowLocal _ _ (fun j hj => copyWrites (inside b hb j hj)) k hk
  frame m a kept outside := by
    rw [map.frame _ a (fun inner => kept (.inl inner)) outside]
    exact copyFrame fun i _ same => kept (.inr (same ▸ rfl))

/- Where element j of line b lies from the start of the buffer. -/
def DirectDftForm.place (n : ℕ) : DirectDftForm → ℕ → ℕ → ℕ
  | directDft _, b, j | cube, b, j | cubeTransposed, b, j | cube2dRow, b, j => b * n + j
  | strided _ outerStride, b, j | cubeStrided outerStride, b, j =>
    b / outerStride * (n * outerStride) + (j * outerStride + b % outerStride)
  | cube2dCol, b, j => b / 64 * (64 * 64) + (j * 64 + b % 64)

theorem sourcePlace (p : Address) : form.source n p = fun b j => p.at (form.place n b j) := by
  cases form <;> rfl

/- The lines of a node that copies lie among the elements of its batch. -/
theorem placeInside (supported : node.form.Supported node.length nbatch) (copies : node.copies = true) {b j : ℕ}
    (hb : b < nbatch) (hj : j < node.length) : node.form.place node.length b j < nbatch * node.length := by
  unfold DirectDftNode.copies at copies
  cases form : node.form with
  | directDft | cube | cubeTransposed | cube2dRow => exact mulAddLt hb hj
  | strided | cubeStrided => simp [form] at copies
  | cube2dCol =>
      rw [form] at supported
      obtain ⟨length, matrices⟩ := supported
      obtain ⟨count, rfl⟩ := matrices
      rw [length] at hj ⊢
      simp only [DirectDftForm.place]
      omega

theorem placedApart {src dst : Address} (apart : src.buffer ≠ dst.buffer) : form.Placed src dst := by
  cases form with
  | directDft | strided | cube | cubeStrided => exact .inr apart
  | cubeTransposed | cube2dRow | cube2dCol => exact apart

/- What is not copied runs in place soundly, or is not in place. -/
theorem placedDirectly (compatible : Compatible input output) (direct : ¬ (node.copies = true ∧ input = output)) :
    node.form.Placed input output := by
  unfold DirectDftNode.copies at direct
  cases form : node.form with
  | directDft | strided | cube | cubeStrided => exact compatible
  | cubeTransposed | cube2dRow | cube2dCol =>
      rw [form] at direct
      exact compatible.resolve_left fun same => direct ⟨rfl, same⟩

/- In place on a copy of the input, apart on the input itself. -/
theorem directDftNodesCompute (w : R) (node : DirectDftNode) (batch : ℕ) (supported : node.form.Supported node.length batch)
    (small : batch ≤ node.compiledBatch) (input output : Address) (compatible : Compatible input output)
    (own : output.buffer ≠ node.inputCopy.buffer) (schedule : Schedule) :
    LayoutMap (node.execute w input output batch schedule) (fun a => a.buffer = node.inputCopy.buffer)
      (node.form.source node.length input) (node.form.target node.length output) node.length batch (dft node.length w) := by
  by_cases copied : node.copies = true ∧ input = output
  · have inner := formMap supported (placedApart own.symm) schedule (w := w)
    rw [sourcePlace] at inner ⊢
    have room : ∀ b < batch, ∀ j < node.length, node.form.place node.length b j < node.compiledBatch * node.length :=
      fun b hb j hj => (placeInside supported copied.1 hb hj).trans_le (Nat.mul_le_mul_right _ small)
    have whole := copiedMap input dftLineLocal inner room
    have same : node.execute w input output batch schedule = _ := funext fun m => if_pos copied
    rw [same]
    exact whole.mono fun a inside => inside.resolve_left not_false
  · have same : node.execute w input output batch schedule = _ := funext fun m => if_neg copied
    rw [same]
    exact (formMap supported (placedDirectly compatible copied) schedule).mono fun _ none => none.elim

/- Three points in place, two lines, summed with compensation. -/
theorem directDftNodesComputeThree :
    LayoutMap ((⟨3, .directDft .compensated, ⟨1, 0⟩, 4⟩ : DirectDftNode).execute (2 : ZMod 7) ⟨0, 0⟩ ⟨0, 0⟩ 2 ascending)
      (fun a => a.buffer = 1) ((⟨0, 0⟩ : Address).row 3) ((⟨0, 0⟩ : Address).row 3) 3 2 (dft 3 2) :=
  directDftNodesCompute 2 ⟨3, .directDft .compensated, ⟨1, 0⟩, 4⟩ 2 trivial (by decide) ⟨0, 0⟩ ⟨0, 0⟩ (.inl rfl) (by decide)
    ascending

end Nodes

end FlagFft.Direct
