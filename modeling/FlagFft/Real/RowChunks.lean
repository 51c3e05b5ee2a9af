import FlagFft.Exec.Launches
import FlagFft.Offsets.Wide
import FlagFft.Real.Packed

/-! The row-wise kernels at the two ends of the full-length real transforms, launched over chunks of rows. The host moves
byte pointers to the first row of a chunk; the kernel counts its rows from zero and finds their elements in words. -/
namespace FlagFft.Real.RowChunks
open Library.Indexing Offsets Exec

/- A buffer of a pass: where the kernel finds the elements of a row, and the bytes the host moves for a row. -/
structure RowSide where
  access : Access
  step : ℕ

structure RowPass where
  rows : ℕ
  cols : ℕ
  load : RowSide
  store : RowSide

/- What the launches of a node depend on besides its length: the tile width its kernels are generated for, the block
limit of the device, and the request. -/
structure Context where
  elements : ℕ
  blockLimit : ℕ
  dtype : String
  batch : ℕ
  inputDistance : ℕ
  outputDistance : ℕ
  inPlace : Bool

def complexElementBytes (inputDtype : String) : ℕ :=
  if inputDtype = "complex128" ∨ inputDtype = "float64" then 16 else 8

namespace Context
variable (context : Context)

def complexBytes : ℕ := complexElementBytes context.dtype

def realBytes : ℕ := context.complexBytes / 2

end Context

namespace RowPass
variable (context : Context) (pass : RowPass)

def rowsPerBlock : ℕ := (packedLayout pass.cols context.elements).2

def span : ℕ := chunkSpan (ceilDiv pass.cols 256) (pass.rowsPerBlock context) context.blockLimit

def launches : List (ℕ × ℕ) := batchChunks pass.rows (pass.span context)

/- The rows of the batch that the guard of a launch lets through. -/
def handled (piece : ℕ × ℕ) : List ℕ :=
  (List.range (ceilDiv piece.2 (pass.rowsPerBlock context))).flatMap fun pid =>
    ((List.range (pass.rowsPerBlock context)).filter fun slot =>
      rowWord pid slot (pass.rowsPerBlock context) < nbatchArg piece.2).map fun slot =>
        piece.1 + (pid * pass.rowsPerBlock context + slot)

/- Where a launch finds an element, in bytes from the pointer the node is given. -/
def address (side : RowSide) (piece : ℕ × ℕ) (pid slot : ℕ) (element : side.access.Coordinate) : ℤ :=
  piece.1 * side.step + context.realBytes *
    (side.access.machine (nbatchArg piece.2) (rowWord pid slot (pass.rowsPerBlock context)) element).toInt

def SideExact (side : RowSide) : Prop :=
  ∀ piece ∈ pass.launches context, ∀ pid < ceilDiv piece.2 (pass.rowsPerBlock context),
    ∀ slot < pass.rowsPerBlock context, pid * pass.rowsPerBlock context + slot < piece.2 →
      ∀ element, side.access.mask element → pass.address context side piece pid slot element =
        context.realBytes * side.access.offset (piece.1 + (pid * pass.rowsPerBlock context + slot)) element

/- Every row once, and where it lies for a launch of all rows. -/
structure Exact : Prop where
  once : (pass.launches context).flatMap (pass.handled context) = List.range pass.rows
  load : pass.SideExact context pass.load
  store : pass.SideExact context pass.store

end RowPass

/- CompiledRawR2CNode, CompiledRawC2RNode, and CompiledRaw2DR2CNode with its rows of length n1 -/
inductive Boundary where
  | r2c (length : ℕ)
  | c2r (length : ℕ)
  | r2cPlane (n0 n1 : ℕ)

namespace Boundary
variable (context : Context)

def blockCols (cols : ℕ) : ℕ := (packedLayout cols context.elements).1

def realDistance (distance length : ℕ) : ℕ :=
  if context.inPlace then max distance (2 * (length / 2 + 1)) else if 0 < distance then distance else length

def halfDistance (distance length : ℕ) : ℕ := if 0 < distance then distance else length / 2 + 1

def passes (node : Boundary) : List RowPass :=
  let complexBytes := context.complexBytes
  let realBytes := context.realBytes
  match node with
  | .r2c length =>
    let inputDistance := realDistance context context.inputDistance length
    let outputDistance := halfDistance context.outputDistance length
    [⟨context.batch, length, ⟨realToComplexLoad length inputDistance, inputDistance * realBytes⟩,
        ⟨(realToComplexStore length (blockCols context length)).access, length * complexBytes⟩⟩,
      -- the output pointer moves by output_distance real elements a row
      ⟨context.batch, length / 2 + 1, ⟨(r2cHalfPackLoad length (blockCols context (length / 2 + 1))).access, length * complexBytes⟩,
        ⟨r2cHalfPackStore length outputDistance, outputDistance * realBytes⟩⟩]
  | .c2r length =>
    let inputDistance := halfDistance context.inputDistance length
    let outputDistance := realDistance context context.outputDistance length
    [⟨context.batch, length, ⟨compactToHermitianFullLoad length inputDistance, inputDistance * complexBytes⟩,
        ⟨(compactToHermitianFullStore length (blockCols context length)).access, length * complexBytes⟩⟩,
      ⟨context.batch, length, ⟨(complexToRealLoad length (blockCols context length)).access, length * complexBytes⟩,
        ⟨complexToRealStore length outputDistance, outputDistance * realBytes⟩⟩]
  | .r2cPlane n0 n1 =>
    let totalRows := context.batch * n0
    [⟨totalRows, n1, ⟨realToComplexLoad n1 n1, n1 * realBytes⟩,
        ⟨(realToComplexStore n1 (blockCols context n1)).access, n1 * complexBytes⟩⟩,
      ⟨totalRows, n1 / 2 + 1, ⟨(r2cHalfPackLoad n1 (blockCols context (n1 / 2 + 1))).access, n1 * complexBytes⟩,
        ⟨r2cHalfPackStore n1 (n1 / 2 + 1), (n1 / 2 + 1) * complexBytes⟩⟩]

/- Lengths, batch and distances are the 32-bit integers of the interface, tiles of 256 to 2048 elements those of the
generator. -/
structure Accepts (node : Boundary) : Prop where
  tile : context.elements ∈ [256, 512, 1024, 2048]
  batch : 0 < context.batch
  length : match node with
    | .r2c length | .c2r length => 0 < length ∧ length < 2 ^ 31
    | .r2cPlane n0 n1 => 0 < n0 ∧ 0 < n1 ∧ n1 < 2 ^ 31
  inputDistance : context.inputDistance < 2 ^ 31
  outputDistance : context.outputDistance < 2 ^ 31

/- Rows of the longest launch over `cols` columns. -/
def longest (rows cols : ℕ) : ℕ :=
  min (chunkSpan (ceilDiv cols 256) (packedLayout cols context.elements).2 context.blockLimit) rows

/- Full complex rows of a launch are found in 32-bit words, up to the last column that is used. -/
def WordRows (length rows cols last : ℕ) : Prop := 2 * ((longest context rows cols - 1) * length + last) < 2 ^ 31

def InReach (node : Boundary) : Prop :=
  match node with
  | .r2c length => WordRows context length context.batch length (length - 1) ∧
      WordRows context length context.batch (length / 2 + 1) (length / 2) ∧
      longest context context.batch (length / 2 + 1) = context.batch
  | .c2r length => WordRows context length context.batch length (length - 1)
  | .r2cPlane n0 n1 => WordRows context n1 (context.batch * n0) n1 (n1 - 1) ∧
      WordRows context n1 (context.batch * n0) (n1 / 2 + 1) (n1 / 2)

end Boundary

section Rows

variable {context : Context} {pass : RowPass}

theorem rowsOfTile {cols elements : ℕ} (tile : elements ∈ [256, 512, 1024, 2048]) :
    (packedLayout cols elements).2 ∣ 2 ^ 31 ∧ (packedLayout cols elements).2 ≤ 2048 := by
  obtain ⟨j, rfl, small⟩ : ∃ j, elements = 2 ^ j ∧ j ≤ 11 := by
    simp only [List.mem_cons, List.not_mem_nil, or_false] at tile
    rcases tile with rfl | rfl | rfl | rfl
    exacts [⟨8, rfl, by decide⟩, ⟨9, rfl, by decide⟩, ⟨10, rfl, by decide⟩, ⟨11, rfl, by decide⟩]
  obtain ⟨i, below, columns⟩ : ∃ i ≤ j, min (2 ^ j) (ceilPowerOfTwo cols) = 2 ^ i := by
    obtain ⟨k, power⟩ : ∃ k, ceilPowerOfTwo cols = 2 ^ k := ⟨_, rfl⟩
    rw [power]
    rcases le_total j k with short | long
    · exact ⟨j, le_rfl, min_eq_left (Nat.pow_le_pow_right (by decide) short)⟩
    · exact ⟨k, long, min_eq_right (Nat.pow_le_pow_right (by decide) long)⟩
  have rows : (packedLayout cols (2 ^ j)).2 = 2 ^ (j - i) := by
    simp only [packedLayout, columns]
    rw [Nat.pow_div below (by decide)]
    exact max_eq_right (Nat.one_le_two_pow)
  rw [rows]
  exact ⟨pow_dvd_pow 2 (by omega), (Nat.pow_le_pow_right (by decide) (by omega : j - i ≤ 11)).trans (by decide)⟩

theorem rowsDivide (tile : context.elements ∈ [256, 512, 1024, 2048]) : pass.rowsPerBlock context ∣ 2 ^ 31 :=
  (rowsOfTile tile).1

theorem rowsPerBlockPositive : 0 < pass.rowsPerBlock context := lt_of_lt_of_le Nat.one_pos (le_max_left _ _)

theorem spanPositive : 0 < pass.span context :=
  Nat.mul_pos (lt_of_lt_of_le Nat.one_pos (le_max_left _ _)) (lt_of_lt_of_le Nat.one_pos (le_max_left _ _))

theorem launchBounds (tile : context.elements ∈ [256, 512, 1024, 2048]) {piece : ℕ × ℕ}
    (member : piece ∈ pass.launches context) : 0 < piece.2 ∧ piece.2 < 2 ^ 31 := by
  obtain ⟨some_, short, _⟩ := chunkBounds spanPositive member
  refine ⟨some_, lt_of_le_of_lt short ?_⟩
  have blocks : max 1 (min 65535 (context.blockLimit / max 1 (ceilDiv pass.cols 256))) ≤ 65535 :=
    max_le (by decide) (min_le_left _ _)
  have rows : max 1 (pass.rowsPerBlock context) ≤ 2048 := max_le (by decide) (rowsOfTile tile).2
  exact lt_of_le_of_lt (Nat.mul_le_mul blocks rows) (by decide)

theorem rangeBelow (start pack count : ℕ) :
    ((List.range pack).filter fun slot => start + slot < count) = List.range (min pack (count - start)) := by
  induction pack with
  | zero => simp
  | succ pack ih =>
      rw [List.range_succ, List.filter_append, ih]
      by_cases inside : start + pack < count
      · rw [List.filter_cons_of_pos (by simpa using inside), List.filter_nil, min_eq_left (by omega), min_eq_left (by omega),
          List.range_succ]
      · rw [List.filter_cons_of_neg (by simpa using inside), List.filter_nil, List.append_nil, min_eq_right (by omega),
          min_eq_right (by omega)]

/- The guards of a launch that fits a word let its own rows through, block by block. -/
theorem handledRows (divides : pass.rowsPerBlock context ∣ 2 ^ 31) {piece : ℕ × ℕ} (small : piece.2 < 2 ^ 31) :
    pass.handled context piece = List.range' piece.1 piece.2 := by
  have guards := (guardExact divides).mpr small
  have blocks : pass.handled context piece = ((batchChunks piece.2 (pass.rowsPerBlock context)).flatMap fun block =>
      List.range' block.1 block.2).map (piece.1 + ·) := by
    rw [RowPass.handled, batchChunks, List.flatMap_map, List.map_flatMap]
    refine List.flatMap_congr fun pid program => ?_
    rw [List.range'_eq_map_range, ← rangeBelow, List.map_map]
    have same : ((List.range (pass.rowsPerBlock context)).filter fun slot =>
        rowWord pid slot (pass.rowsPerBlock context) < nbatchArg piece.2) =
        (List.range (pass.rowsPerBlock context)).filter fun slot => pid * pass.rowsPerBlock context + slot < piece.2 := by
      refine List.filter_congr fun slot inside => ?_
      simpa using guards pid (List.mem_range.mp program) slot (List.mem_range.mp inside)
    rw [same]
    rfl
  rw [blocks, chunksCover rowsPerBlockPositive, List.range'_eq_map_range]

theorem everyRowOnce (tile : context.elements ∈ [256, 512, 1024, 2048]) :
    (pass.launches context).flatMap (pass.handled context) = List.range pass.rows := by
  rw [← @chunksCover pass.rows _ spanPositive]
  exact List.flatMap_congr fun piece member => handledRows (rowsDivide tile) (launchBounds tile member).2

/- A row is `scalars` scalars after the one before it. -/
def RowSide.Linear (side : RowSide) (scalars : ℕ) : Prop :=
  ∀ first row element, side.access.offset (first + row) element = first * scalars + side.access.offset row element

/- Where the host moves by whole rows, a pass is as good as the words of its kernel. -/
theorem sideExact {side : RowSide} {scalars : ℕ} (tile : context.elements ∈ [256, 512, 1024, 2048])
    (linear : side.Linear scalars) (scalar : 0 < context.realBytes)
    (step : ∀ piece ∈ pass.launches context, piece.1 * side.step = piece.1 * (scalars * context.realBytes)) :
    pass.SideExact context side ↔ ∀ piece ∈ pass.launches context, side.access.Exact piece.2 (pass.rowsPerBlock context) := by
  refine forall_congr' fun piece => forall_congr' fun member => ?_
  have guards := (guardExact (@rowsDivide _ pass tile)).mpr (launchBounds tile member).2
  have address (pid slot : ℕ) (element : side.access.Coordinate) :
      pass.address context side piece pid slot element =
          context.realBytes * side.access.offset (piece.1 + (pid * pass.rowsPerBlock context + slot)) element ↔
        (side.access.machine (nbatchArg piece.2) (rowWord pid slot (pass.rowsPerBlock context)) element).toInt =
          side.access.offset (pid * pass.rowsPerBlock context + slot) element := by
    have nonzero : (context.realBytes : ℤ) ≠ 0 := by exact_mod_cast scalar.ne'
    have moved : (piece.1 : ℤ) * side.step = context.realBytes * (piece.1 * scalars) := by
      have same := step piece member
      rw [← Nat.mul_assoc, Nat.mul_comm _ context.realBytes] at same
      exact_mod_cast same
    rw [RowPass.address, linear, moved, ← mul_add, mul_right_inj' nonzero]
    push_cast
    exact add_right_inj _
  constructor
  · intro same pid program slot inside
    refine ⟨fun _ => guards pid program slot inside, fun here element active => ?_⟩
    exact (address pid slot element).mp (same pid program slot inside here element active)
  · intro exact_ pid program slot inside here element active
    exact (address pid slot element).mpr ((exact_ pid program slot inside).2 here element active)

theorem someLaunch (some_ : 0 < pass.rows) : ∃ piece ∈ pass.launches context, piece.2 = min (pass.span context) pass.rows :=
  ⟨_, firstChunk spanPositive some_, rfl⟩

/- A side addressed in 32-bit words. -/
theorem wordSide {narrow : WordAccess} {step : ℕ} (tile : context.elements ∈ [256, 512, 1024, 2048]) (sound : narrow.Sound)
    (some_ : 0 < pass.rows) (scalar : 0 < context.realBytes) (whole : step = narrow.scale * narrow.length * context.realBytes) :
    pass.SideExact context ⟨narrow.access, step⟩ ↔ narrow.span (min (pass.span context) pass.rows) < 2 ^ 31 := by
  have linear : RowSide.Linear ⟨narrow.access, step⟩ (narrow.scale * narrow.length) := by
    intro first row element
    simp only [WordAccess.access]
    ring
  rw [sideExact tile linear scalar fun piece _ => congrArg (piece.1 * ·) whole]
  have divides := @rowsDivide _ pass tile
  constructor
  · intro exact_
    obtain ⟨piece, member, longest⟩ := @someLaunch context pass some_
    rw [← longest]
    exact ((wordExact sound divides (launchBounds tile member).1).mp (exact_ piece member)).2
  · intro reach piece member
    obtain ⟨positive, small⟩ := launchBounds tile member
    refine (wordExact sound divides positive).mpr ⟨fun _ => small, lt_of_le_of_lt ?_ reach⟩
    obtain ⟨_, short, inside⟩ := chunkBounds spanPositive member
    have count : piece.2 ≤ min (pass.span context) pass.rows := le_min short (by omega)
    exact Nat.mul_le_mul_left _ (Nat.add_le_add_right (Nat.mul_le_mul_right _ (by omega)) _)

/- A side addressed through a 64-bit distance. -/
theorem distanceSide {scale distance width last step : ℕ} {clamped : Bool} {position : ℕ → ℕ} {word : Int32 → Int32}
    (tile : context.elements ∈ [256, 512, 1024, 2048]) (columns : TileColumns width last position word)
    (unit : scale ≤ 2) (near : distance ≤ 2 ^ 31) (narrow : width < 2 ^ 31) (below : last < 2 ^ 31)
    (scalar : 0 < context.realBytes)
    (whole : ∀ piece ∈ pass.launches context, piece.1 * step = piece.1 * (scale * distance * context.realBytes)) :
    pass.SideExact context ⟨distanceOffset scale distance width clamped position word, step⟩ := by
  have linear : RowSide.Linear ⟨distanceOffset scale distance width clamped position word, step⟩ (scale * distance) := by
    intro first row element
    simp only [distanceOffset]
    ring
  refine (sideExact tile linear scalar whole).mpr fun piece member => ?_
  exact (distanceExact (rowsDivide tile) columns unit near narrow below).mpr (launchBounds tile member).2

/- A pointer that moves by half a row is right in the first launch only. -/
theorem strayingSide {distance width : ℕ} (tile : context.elements ∈ [256, 512, 1024, 2048]) (positive : 0 < distance)
    (near : distance ≤ 2 ^ 31) (some_ : 0 < width) (narrow : width < 2 ^ 31) (scalar : 0 < context.realBytes) :
    pass.SideExact context ⟨distanceOffset 2 distance width true id id, distance * context.realBytes⟩ ↔
      min (pass.span context) pass.rows = pass.rows := by
  constructor
  · intro exact_
    by_contra more
    have second : pass.span context < pass.rows := by omega
    have member : (1 * pass.span context, min (pass.span context) (pass.rows - 1 * pass.span context)) ∈ pass.launches context :=
      memChunks.mpr ⟨1, (ltCeilDiv spanPositive).mpr (by omega), rfl⟩
    obtain ⟨filled, small⟩ := launchBounds tile member
    have first : 0 < ceilDiv (min (pass.span context) (pass.rows - 1 * pass.span context)) (pass.rowsPerBlock context) :=
      (ltCeilDiv rowsPerBlockPositive).mpr (by omega)
    have words := (@distanceExact 2 distance width _ _ _ true id id (@rowsDivide _ pass tile) (plainColumns some_) le_rfl near
      narrow (by omega)).mpr small
    have machine := (words 0 first 0 rowsPerBlockPositive).2 (by omega) (0 : ℕ) some_
    have here := exact_ _ member 0 first 0 rowsPerBlockPositive (by omega) (0 : ℕ) some_
    unfold RowPass.address at here
    rw [machine] at here
    simp only [distanceOffset, id_eq, Nat.zero_mul, Nat.one_mul, Nat.cast_zero, mul_zero,
      add_zero] at here
    have moved : pass.span context * (distance * context.realBytes) =
        context.realBytes * (2 * (pass.span context * distance)) := by
      exact_mod_cast here
    have product : 0 < pass.span context * (distance * context.realBytes) :=
      Nat.mul_pos spanPositive (Nat.mul_pos positive scalar)
    have twice : context.realBytes * (2 * (pass.span context * distance)) =
        2 * (pass.span context * (distance * context.realBytes)) := by ring
    omega
  · intro single
    refine distanceSide tile (plainColumns some_) le_rfl near narrow (by omega) scalar fun piece member => ?_
    obtain ⟨i, here, rfl⟩ := memChunks.mp member
    have start := (ltCeilDiv spanPositive).mp here
    have first : i = 0 := by
      by_contra later
      have further := Nat.le_mul_of_pos_left (pass.span context) (Nat.pos_of_ne_zero later)
      omega
    simp [first]

end Rows

section Nodes

variable {context : Context} {node : Boundary}

namespace Boundary

theorem scalarBytes : 0 < context.realBytes ∧ context.complexBytes = 2 * context.realBytes := by
  simp only [Context.realBytes, Context.complexBytes, complexElementBytes]
  split <;> decide

theorem realDistanceNear {distance length : ℕ} (inside : distance < 2 ^ 31) (narrow : length < 2 ^ 31) :
    realDistance context distance length ≤ 2 ^ 31 := by
  rw [realDistance]
  split
  · omega
  · split <;> omega

theorem halfDistanceNear {distance length : ℕ} (inside : distance < 2 ^ 31) (narrow : length < 2 ^ 31) :
    0 < halfDistance distance length ∧ halfDistance distance length ≤ 2 ^ 31 := by
  rw [halfDistance]
  split <;> omega

theorem passExact {pass : RowPass} {load store : Prop} (tile : context.elements ∈ [256, 512, 1024, 2048])
    (loads : pass.SideExact context pass.load ↔ load) (stores : pass.SideExact context pass.store ↔ store) :
    pass.Exact context ↔ load ∧ store :=
  ⟨fun exact_ => ⟨loads.mp exact_.load, stores.mp exact_.store⟩,
    fun both => ⟨everyRowOnce tile, loads.mpr both.1, stores.mpr both.2⟩⟩

/- Rows of full complex elements, tiled by columns. -/
theorem tiledSide {pass : RowPass} {length width last columns : ℕ} (tile : context.elements ∈ [256, 512, 1024, 2048])
    (some_ : 0 < pass.rows) (tiled : TileColumns width last id id) (wide : width ≤ last + 2) :
    pass.SideExact context ⟨(rowTileOffset length width last columns id id).access, length * context.complexBytes⟩ ↔
      WordRows context length pass.rows pass.cols last := by
  obtain ⟨scalar, complex⟩ := @scalarBytes context
  refine wordSide tile (rowTileSound tiled wide) some_ scalar ?_
  rw [complex]
  simp only [rowTileOffset]
  ring

/- Rows of real elements, or of complex ones, at their distance. -/
theorem realSide {pass : RowPass} {distance width : ℕ} (tile : context.elements ∈ [256, 512, 1024, 2048])
    (positive : 0 < width) (narrow : width < 2 ^ 31) (near : distance ≤ 2 ^ 31) :
    pass.SideExact context ⟨distanceOffset 1 distance width true id id, distance * context.realBytes⟩ :=
  distanceSide tile (plainColumns positive) (by decide) near narrow (by omega) scalarBytes.1 fun _ _ => by ring

theorem complexSide {pass : RowPass} {distance width last : ℕ} {position : ℕ → ℕ} {word : Int32 → Int32}
    (tile : context.elements ∈ [256, 512, 1024, 2048]) (columns : TileColumns width last position word)
    (narrow : width < 2 ^ 31) (below : last < 2 ^ 31) (near : distance ≤ 2 ^ 31) :
    pass.SideExact context ⟨distanceOffset 2 distance width true position word, distance * context.complexBytes⟩ := by
  obtain ⟨scalar, complex⟩ := @scalarBytes context
  refine distanceSide tile columns le_rfl near narrow below scalar fun piece _ => ?_
  rw [complex]
  ring

theorem boundaryExact (accepted : node.Accepts context) :
    (∀ pass ∈ node.passes context, pass.Exact context) ↔ node.InReach context := by
  have tile := accepted.tile
  cases node with
  | r2c length =>
      obtain ⟨positive, narrow⟩ := accepted.length
      have half : 0 < length / 2 + 1 := Nat.succ_pos _
      obtain ⟨apart, near⟩ := @halfDistanceNear context.outputDistance length accepted.outputDistance narrow
      simp only [passes, List.forall_mem_cons, List.not_mem_nil, false_imp_iff, implies_true, and_true]
      rw [passExact tile (iff_true_intro (realSide tile positive narrow (realDistanceNear accepted.inputDistance narrow)))
          (tiledSide tile accepted.batch (plainColumns positive) (by omega)),
        passExact tile (tiledSide tile accepted.batch (plainColumns half) (by omega))
          (strayingSide tile apart near half (by omega) scalarBytes.1)]
      simp only [true_and, Nat.add_sub_cancel]
      rfl
  | c2r length =>
      obtain ⟨positive, narrow⟩ := accepted.length
      obtain ⟨_, near⟩ := @halfDistanceNear context.inputDistance length accepted.inputDistance narrow
      simp only [passes, List.forall_mem_cons, List.not_mem_nil, false_imp_iff, implies_true, and_true]
      rw [passExact tile (iff_true_intro (complexSide tile (hermitianColumns positive) narrow (by omega) near))
          (tiledSide tile accepted.batch (plainColumns positive) (by omega)),
        passExact tile (tiledSide tile accepted.batch (plainColumns positive) (by omega))
          (iff_true_intro (realSide tile positive narrow (realDistanceNear accepted.outputDistance narrow)))]
      simp only [true_and, and_true, and_self]
      rfl
  | r2cPlane n0 n1 =>
      obtain ⟨some_, positive, narrow⟩ := accepted.length
      have rows : 0 < context.batch * n0 := Nat.mul_pos accepted.batch some_
      have half : 0 < n1 / 2 + 1 := Nat.succ_pos _
      simp only [passes, List.forall_mem_cons, List.not_mem_nil, false_imp_iff, implies_true, and_true]
      rw [passExact tile (iff_true_intro (realSide tile positive narrow (by omega)))
          (tiledSide tile rows (plainColumns positive) (by omega)),
        passExact tile (tiledSide tile rows (plainColumns half) (by omega))
          (iff_true_intro (complexSide tile (plainColumns half) (by omega) (by omega) (by omega)))]
      simp only [true_and, and_true, Nat.add_sub_cancel]
      rfl

/- A transform of 521 real points, whose half spectrum makes two blocks of a row. -/
def oddContext (batch : ℕ) : Context := ⟨256, 2147483647, "complex64", batch, 521, 261, false⟩

theorem oddAccepts {batch : ℕ} (some_ : 0 < batch) : (r2c 521).Accepts (oddContext batch) where
  tile := List.mem_cons_self
  batch := some_
  length := ⟨by decide, by decide⟩
  inputDistance := Nat.lt_of_lt_of_le (by decide : 521 < 1024) (by decide)
  outputDistance := Nat.lt_of_lt_of_le (by decide : 261 < 1024) (by decide)

theorem boundaryExactOddRows : (∀ pass ∈ (r2c 521).passes (oddContext 8), pass.Exact (oddContext 8)) ↔
    (r2c 521).InReach (oddContext 8) :=
  boundaryExact (oddAccepts (by decide))

/- The second launch of the pack pass stores row 65535 in the middle of the rows before it. -/
theorem secondPackStrays : ¬∀ (context : Context) (node : Boundary), node.Accepts context →
    ∀ pass ∈ node.passes context, pass.Exact context := by
  intro holds
  have reach := (boundaryExact (oddAccepts (by decide : 0 < 65536))).mp (holds _ _ (oddAccepts (by decide)))
  exact absurd reach.2.2 (by decide)

end Boundary

end Nodes

end FlagFft.Real.RowChunks
