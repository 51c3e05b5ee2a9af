import FlagFft.Offsets.Kernels

/-! The loads and stores that go through a distance, a stride or a 64-bit index: their offsets are 64-bit words. -/
namespace FlagFft.Offsets
open Library.Words

section Distance

/- A row found through its distance: real elements (`scale` one) or complex ones (two). The real-boundary kernels
clamp the row, the others do not. -/
def distanceOffset (scale distance width : ℕ) (clamped : Bool) (position : ℕ → ℕ) (word : Int32 → Int32) : Access where
  Coordinate := ℕ
  guarded := true
  mask index := index < width
  offset row index := scale * (row * distance + position index)
  machine nbatch row index :=
    let row := if clamped then safeRows nbatch row else row
    let batchBase := row.toInt64 * Int64.ofNat distance
    (batchBase + (word (Int32.ofNat index)).toInt64) * Int64.ofNat scale

def r2cLeafLoad (n inputDistance : ℕ) : Access := distanceOffset 1 inputDistance n false id id

def r2cLeafStore (n outputDistance : ℕ) : Access := distanceOffset 2 outputDistance (n / 2 + 1) false id id

/- compact_idx -/
def c2rLeafLoad (n inputDistance : ℕ) : Access :=
  distanceOffset 2 inputDistance n false (fun j => if j < n / 2 + 1 then j else n - j)
    (fun j => if j < Int32.ofNat (n / 2 + 1) then j else Int32.ofNat n - j)

def c2rLeafStore (n outputDistance : ℕ) : Access := distanceOffset 1 outputDistance n false id id

/- 2 * in: the even element of a pair, the odd one follows it. -/
def packedR2cLeafLoad (packed inputDistance : ℕ) : Access :=
  distanceOffset 1 inputDistance packed false (fun j => j * 2) (fun j => j * 2)

def packedR2cLeafStore (packed outputDistance : ℕ) : Access := distanceOffset 2 outputDistance (packed + 1) false id id

def packedC2rLeafLoad (packed inputDistance : ℕ) : Access := distanceOffset 2 inputDistance packed false id id

/- packed_q = packed - packed_k -/
def packedC2rLeafMirror (packed inputDistance : ℕ) : Access :=
  distanceOffset 2 inputDistance packed false (fun k => packed - k) (fun k => Int32.ofNat packed - k)

/- The real ends of the four-step kernels; the index is the one of fourStepRowLoad or fourStepColStore. -/
def fourStepRealRowLoad (n inputDistance : ℕ) : Access := distanceOffset 1 inputDistance n false id id

def fourStepHermitianRowLoad (n inputDistance : ℕ) : Access :=
  distanceOffset 2 inputDistance n false (fun j => if j < n / 2 + 1 then j else n - j)
    (fun j => if j < Int32.ofNat (n / 2 + 1) then j else Int32.ofNat n - j)

def fourStepR2cColStore (n outputDistance : ℕ) : Access := distanceOffset 2 outputDistance (n / 2 + 1) false id id

def fourStepC2rColStore (n outputDistance : ℕ) : Access := distanceOffset 1 outputDistance n false id id

/- src of real_to_complex -/
def realToComplexLoad (n inputDistance : ℕ) : Access := distanceOffset 1 inputDistance n true id id

/- dst of r2c_half_pack -/
def r2cHalfPackStore (n outputDistance : ℕ) : Access := distanceOffset 2 outputDistance (n / 2 + 1) true id id

/- dst of r2c_packed_postprocess -/
def r2cPackedPostprocessStore (packed outputDistance : ℕ) : Access :=
  distanceOffset 2 outputDistance (packed + 1) true id id

/- x_ptr and q_ptr of c2r_packed_preprocess -/
def c2rPackedPreprocessLoad (packed inputDistance : ℕ) : Access := distanceOffset 2 inputDistance packed true id id

def c2rPackedPreprocessMirror (packed inputDistance : ℕ) : Access :=
  distanceOffset 2 inputDistance packed true (fun k => packed - k) (fun k => Int32.ofNat packed - k)

/- src of compact_to_hermitian_full -/
def compactToHermitianFullLoad (n inputDistance : ℕ) : Access :=
  distanceOffset 2 inputDistance n true (fun j => if j < n / 2 + 1 then j else n - j)
    (fun j => if j < Int32.ofNat (n / 2 + 1) then j else Int32.ofNat n - j)

/- dst of complex_to_real -/
def complexToRealStore (n outputDistance : ℕ) : Access := distanceOffset 1 outputDistance n true id id

theorem doubledColumns {packed : ℕ} (positive : 0 < packed) :
    TileColumns packed ((packed - 1) * 2) (fun j => j * 2) (fun j => j * 2) where
  bounded j active := Nat.mul_le_mul_right 2 (Nat.le_sub_one_of_lt active)
  reached := ⟨packed - 1, Nat.sub_lt positive Nat.one_pos, rfl⟩
  computes _ j _ := by
    rw [Int32.ofNat_mul]
    rfl

theorem mirrorColumns {packed : ℕ} (positive : 0 < packed) :
    TileColumns packed packed (fun k => packed - k) (fun k => Int32.ofNat packed - k) where
  bounded _ _ := Nat.sub_le packed _
  reached := ⟨0, positive, rfl⟩
  computes _ _ active := (Int32.ofNat_sub _ _ active.le).symm

/- A product of a 32-bit row and a distance of at most 2^31 stays far below 2^62. -/
theorem rowProduct {rows row distance position : ℕ} (inside : row < rows) (small : rows < 2 ^ 31)
    (near : distance ≤ 2 ^ 31) (below : position < 2 ^ 31) : row * distance + position < 2 ^ 62 := by
  have bound : row * distance ≤ (2 ^ 31 - 2) * 2 ^ 31 := Nat.mul_le_mul (by omega) near
  omega

theorem distanceExact {scale distance width last rows pack : ℕ} {clamped : Bool} {position : ℕ → ℕ}
    {word : Int32 → Int32} (divides : pack ∣ 2 ^ 31) (columns : TileColumns width last position word)
    (unit : scale ≤ 2) (near : distance ≤ 2 ^ 31) (narrow : width < 2 ^ 31) (below : last < 2 ^ 31) :
    (distanceOffset scale distance width clamped position word).Exact rows pack ↔ rows < 2 ^ 31 := by
  rw [exactRows divides]
  constructor
  · rintro ⟨guards, -⟩
    exact guards rfl
  · intro small
    refine ⟨fun _ => small, ?_⟩
    intro row inside index active
    have at_ := columns.bounded index active
    have product := @rowProduct rows row distance (position index) inside small near (by omega)
    have scaled := Nat.mul_le_mul unit (Nat.le_refl (row * distance + position index))
    have picked : (if clamped then safeRows (Int32.ofNat rows) (Int32.ofNat row) else Int32.ofNat row) = Int32.ofNat row := by
      cases clamped with
      | true => exact safeRowsLiteral inside small
      | false => rfl
    change (((if clamped then safeRows (Int32.ofNat rows) (Int32.ofNat row) else Int32.ofNat row).toInt64 *
      Int64.ofNat distance + (word (Int32.ofNat index)).toInt64) * Int64.ofNat scale).toInt =
        ((scale * (row * distance + position index) : ℕ) : ℤ)
    rw [picked, columns.computes narrow index active, widenLiteral (by omega), widenLiteral (by omega),
      ← Int64.ofNat_mul, ← Int64.ofNat_add, ← Int64.ofNat_mul, Nat.mul_comm _ scale]
    exact wideLiteralExact (by omega)

end Distance

section Strided

/- Rows of a strided pass: row `batch_index * outer_stride + rest` starts at `rest` of its block. The four-step
kernels use the same formula with the index of a whole row. -/
def stridedOffset (n outerStride : ℕ) : Access where
  Coordinate := ℕ
  guarded := true
  mask index := index < n
  offset row index := 2 * (row / outerStride * (n * outerStride) + row % outerStride + index * outerStride)
  machine _ currentBatch index :=
    let stride := Int64.ofNat outerStride
    let batchIndex := currentBatch.toInt64 / stride
    let batchBase := batchIndex * ((Int32.ofNat n).toInt64 * stride) + (currentBatch.toInt64 - batchIndex * stride)
    (batchBase + (Int32.ofNat index).toInt64 * stride) * 2

def fourStepRowStrided (n1 n2 outerStride : ℕ) : Access := stridedOffset (n1 * n2) outerStride

def fourStepColStrided (n1 n2 outerStride : ℕ) : Access := stridedOffset (n1 * n2) outerStride

/- Whole blocks of the stride: every element is one of the rows * n of the batch. -/
theorem stridedBelow {rows row n stride index : ℕ} (blocks : stride ∣ rows) (inside : row < rows) (active : index < n) :
    row / stride * (n * stride) + row % stride + index * stride < rows * n := by
  obtain ⟨count, whole⟩ := blocks
  have positive : 0 < stride := Nat.pos_of_mul_pos_right (whole ▸ Nat.zero_lt_of_lt inside)
  have outer : row / stride < count := Nat.div_lt_of_lt_mul (whole ▸ inside)
  have rest := gridBelow active (Nat.mod_lt row positive)
  have block := gridBelow outer rest
  have total : count * (n * stride) = rows * n := by rw [whole]; ring
  omega

theorem stridedExact {n stride rows pack : ℕ} (divides : pack ∣ 2 ^ 31) (narrow : n < 2 ^ 31) (positive : 0 < n)
    (blocks : stride ∣ rows) (nonempty : 0 < rows) : (stridedOffset n stride).Exact rows pack ↔ rows < 2 ^ 31 := by
  rw [exactRows divides]
  constructor
  · rintro ⟨guards, -⟩
    exact guards rfl
  · intro small
    refine ⟨fun _ => small, ?_⟩
    intro row inside (index : ℕ) active
    have column : index < n := active
    have below := stridedBelow blocks inside column
    have strides := Nat.le_of_dvd nonempty blocks
    have total : rows * n ≤ (2 ^ 31 - 1) * (2 ^ 31 - 1) := Nat.mul_le_mul (by omega) (by omega)
    have rest : row - row / stride * stride = row % stride := by
      have whole := Nat.div_add_mod' row stride
      omega
    change (((Int32.ofNat row).toInt64 / Int64.ofNat stride * ((Int32.ofNat n).toInt64 * Int64.ofNat stride) +
      ((Int32.ofNat row).toInt64 - (Int32.ofNat row).toInt64 / Int64.ofNat stride * Int64.ofNat stride) +
        (Int32.ofNat index).toInt64 * Int64.ofNat stride) * 2).toInt =
          ((2 * (row / stride * (n * stride) + row % stride + index * stride) : ℕ) : ℤ)
    rw [widenLiteral (by omega), widenLiteral narrow, widenLiteral (by omega), ← Int64.ofNat_div (by omega) (by omega),
      ← Int64.ofNat_mul, ← Int64.ofNat_mul, ← Int64.ofNat_mul,
      ← Int64.ofNat_sub _ _ (Nat.div_mul_le_self row stride), rest, ← Int64.ofNat_mul, ← Int64.ofNat_add, ← Int64.ofNat_add]
    have two : (2 : Int64) = Int64.ofNat 2 := rfl
    rw [two, ← Int64.ofNat_mul, Nat.mul_comm _ 2]
    exact wideLiteralExact (by omega)

end Strided

section Stockham

/- One stage: program `pid` takes `block` butterflies, numbered over all rows. Every offset is a 64-bit word from
the program id on. -/
structure StockhamStage where
  n : ℕ
  radix : ℕ
  span : ℕ
  block : ℕ

variable (stage : StockhamStage)

def StockhamStage.index (pid lane : ℕ) : Int64 :=
  (Int32.ofNat pid).toInt64 * Int64.ofNat stage.block + (Int32.ofNat lane).toInt64

def StockhamStage.mask (nbatch : Int32) (index : Int64) : Bool :=
  index < nbatch.toInt64 * Int64.ofNat (stage.n / stage.radix)

def StockhamStage.src (index : Int64) (digit : ℕ) : Int64 :=
  let batch := index / Int64.ofNat (stage.n / stage.radix)
  let k := index % Int64.ofNat (stage.n / stage.radix)
  (batch * Int64.ofNat stage.n + k + Int64.ofNat (digit * (stage.n / stage.radix))) * 2

def StockhamStage.dst (index : Int64) (digit : ℕ) : Int64 :=
  let batch := index / Int64.ofNat (stage.n / stage.radix)
  let k := index % Int64.ofNat (stage.n / stage.radix)
  let j := k % Int64.ofNat stage.span
  let dst := batch * Int64.ofNat stage.n + Int64.ofNat stage.radix * k - Int64.ofNat (stage.radix - 1) * j
  (dst + Int64.ofNat digit * Int64.ofNat stage.span) * 2

/- Butterfly `k` of a row reads k + digit * (n / radix) and writes radix * k - (radix - 1) * j + digit * span. -/
structure StockhamStage.Exact (rows : ℕ) : Prop where
  guards : ∀ pid < 2 ^ 31, ∀ lane < stage.block, stage.mask (nbatchArg rows) (stage.index pid lane) = true ↔
    pid * stage.block + lane < rows * (stage.n / stage.radix)
  loads : ∀ pid < 2 ^ 31, ∀ lane < stage.block, ∀ digit < stage.radix, ∀ row k : ℕ, row < rows → k < stage.n / stage.radix →
    pid * stage.block + lane = row * (stage.n / stage.radix) + k →
      (stage.src (stage.index pid lane) digit).toInt =
        ((2 * (row * stage.n + k + digit * (stage.n / stage.radix)) : ℕ) : ℤ)
  stores : ∀ pid < 2 ^ 31, ∀ lane < stage.block, ∀ digit < stage.radix, ∀ row k : ℕ, row < rows → k < stage.n / stage.radix →
    pid * stage.block + lane = row * (stage.n / stage.radix) + k →
      (stage.dst (stage.index pid lane) digit).toInt =
        ((2 * (row * stage.n + (stage.radix * k - (stage.radix - 1) * (k % stage.span)) + digit * stage.span) : ℕ) : ℤ)

/- What the builder of a stage checks. -/
structure StockhamStage.Valid : Prop where
  divides : stage.radix * stage.span ∣ stage.n
  positive : 0 < stage.n
  narrow : stage.n < 2 ^ 31
  lanes : stage.block ≤ 128

variable {stage}

theorem stockhamSizes (valid : stage.Valid) : 0 < stage.radix ∧ 0 < stage.span ∧
    stage.radix * (stage.n / stage.radix) = stage.n ∧ stage.span ≤ stage.n / stage.radix := by
  have divides := valid.divides
  have nonempty : 0 < stage.radix * stage.span := Nat.pos_of_dvd_of_pos divides valid.positive
  have radix : 0 < stage.radix := Nat.pos_of_mul_pos_right nonempty
  have rest : stage.radix ∣ stage.n := (Nat.dvd_mul_right _ _).trans divides
  refine ⟨radix, Nat.pos_of_mul_pos_left nonempty, Nat.mul_div_cancel' rest, ?_⟩
  rw [Nat.le_div_iff_mul_le radix, Nat.mul_comm]
  exact Nat.le_of_dvd valid.positive divides

theorem stockhamIndex (valid : stage.Valid) {pid lane : ℕ} (program : pid < 2 ^ 31) (inside : lane < stage.block) :
    stage.index pid lane = Int64.ofNat (pid * stage.block + lane) ∧ pid * stage.block + lane < 2 ^ 38 := by
  have lanes := valid.lanes
  have bound : pid * stage.block ≤ (2 ^ 31 - 1) * 128 := Nat.mul_le_mul (by omega) lanes
  refine ⟨?_, by omega⟩
  unfold StockhamStage.index
  rw [widenLiteral program, widenLiteral (by omega), ← Int64.ofNat_mul, ← Int64.ofNat_add]

theorem stockhamExact (valid : stage.Valid) {rows : ℕ} (small : rows < 2 ^ 31) : stage.Exact rows := by
  obtain ⟨radix, span, whole, step⟩ := stockhamSizes valid
  have narrow := valid.narrow
  have shorter : stage.n / stage.radix ≤ stage.n := Nat.div_le_self _ _
  have rowBelow : ∀ row, row < rows → row * stage.n ≤ (2 ^ 31 - 2) * (2 ^ 31 - 1) := by
    intro row inside
    exact Nat.mul_le_mul (by omega) (by omega)
  have butterfly : ∀ {row k : ℕ}, k < stage.n / stage.radix →
      (row * (stage.n / stage.radix) + k) / (stage.n / stage.radix) = row ∧
        (row * (stage.n / stage.radix) + k) % (stage.n / stage.radix) = k := by
    intro row k active
    rw [Nat.add_comm, Nat.add_mul_div_right _ _ (by omega), Nat.add_mul_mod_self_right, Nat.div_eq_of_lt active,
      Nat.mod_eq_of_lt active, Nat.zero_add]
    exact ⟨rfl, rfl⟩
  have two : (2 : Int64) = Int64.ofNat 2 := rfl
  refine ⟨?_, ?_, ?_⟩
  · intro pid program lane inside
    obtain ⟨same, below⟩ := stockhamIndex valid program inside
    have total : rows * (stage.n / stage.radix) ≤ (2 ^ 31 - 1) * (2 ^ 31 - 1) := Nat.mul_le_mul (by omega) (by omega)
    rw [same, StockhamStage.mask, nbatchLiteral, widenLiteral small, ← Int64.ofNat_mul, decide_eq_true_iff,
      Int64.ofNat_lt_iff_lt (by omega) (by omega)]
  · intro pid program lane inside digit some_ row k rowInside active split
    obtain ⟨same, below⟩ := stockhamIndex valid program inside
    have rowBound := rowBelow row rowInside
    have digits : digit * (stage.n / stage.radix) ≤ stage.n := (Nat.mul_le_mul_right _ some_.le).trans_eq whole
    rw [same, split, StockhamStage.src, ← Int64.ofNat_div (by omega) (by omega), ← Int64.ofNat_mod (by omega) (by omega),
      (butterfly active).1, (butterfly active).2, ← Int64.ofNat_mul, ← Int64.ofNat_add, ← Int64.ofNat_add, two,
      ← Int64.ofNat_mul, Nat.mul_comm _ 2]
    exact wideLiteralExact (by omega)
  · intro pid program lane inside digit some_ row k rowInside active split
    obtain ⟨same, below⟩ := stockhamIndex valid program inside
    have rowBound := rowBelow row rowInside
    have digits : digit * stage.span ≤ stage.n := (Nat.mul_le_mul some_.le step).trans_eq whole
    have scattered : stage.radix * k ≤ stage.n := (Nat.mul_le_mul_left _ active.le).trans_eq whole
    have rest : (stage.radix - 1) * (k % stage.span) ≤ stage.radix * k :=
      Nat.mul_le_mul (Nat.sub_le _ _) (Nat.mod_le _ _)
    rw [same, split, StockhamStage.dst, ← Int64.ofNat_div (by omega) (by omega), ← Int64.ofNat_mod (by omega) (by omega),
      (butterfly active).1, (butterfly active).2, ← Int64.ofNat_mod (by omega) (by omega), ← Int64.ofNat_mul,
      ← Int64.ofNat_mul, ← Int64.ofNat_add, ← Int64.ofNat_mul, ← Int64.ofNat_sub _ _ (by omega), ← Int64.ofNat_mul,
      ← Int64.ofNat_add, two, ← Int64.ofNat_mul, Nat.mul_comm _ 2]
    rw [Nat.add_sub_assoc rest]
    exact wideLiteralExact (by omega)

end Stockham

end FlagFft.Offsets
