import FlagFft.Device
import FlagFft.Library.Words

/-! Element offsets as generated kernels compute them. Program ids, ranges and literals are 32-bit words, distances and
strides 64-bit ones; a 32-bit offset is widened only where it is added to a pointer. -/
namespace FlagFft.Offsets
open Library.Words

/- One load or store: which elements of a row it touches, where they lie, and the words the kernel computes for
them from `nbatch` and the number of the row. A guarded kernel compares that number with `nbatch`. -/
structure Access where
  Coordinate : Type
  guarded : Bool
  mask : Coordinate → Prop
  offset : ℕ → Coordinate → ℕ
  machine : Int32 → Int32 → Coordinate → Int64

/- raw_kernel_args casts the batch of the context. -/
def nbatchArg (batch : ℕ) : Int32 := (Int64.ofNat batch).toInt32

/- Row `slot` of the rows program `pid` takes. -/
def rowWord (pid slot pack : ℕ) : Int32 := Int32.ofNat pid * Int32.ofNat pack + Int32.ofNat slot

/- In every program of the launch the guard lets exactly the rows of the batch pass, and every element of such a
row is where it should be. -/
def Access.Exact (access : Access) (rows pack : ℕ) : Prop :=
  ∀ pid < ceilDiv rows pack, ∀ slot < pack,
    (access.guarded = true → (rowWord pid slot pack < nbatchArg rows ↔ pid * pack + slot < rows)) ∧
      (pid * pack + slot < rows → ∀ element, access.mask element →
        (access.machine (nbatchArg rows) (rowWord pid slot pack) element).toInt =
          access.offset (pid * pack + slot) element)

section Rows
variable {access : Access} {rows pack : ℕ}

theorem rowWordLiteral (pid slot pack : ℕ) : rowWord pid slot pack = Int32.ofNat (pid * pack + slot) := by
  simp [rowWord]

theorem nbatchLiteral (batch : ℕ) : nbatchArg batch = Int32.ofNat batch := narrowLiteral batch

theorem programOf (positive : 0 < pack) {row : ℕ} (inside : row < rows) :
    row / pack < ceilDiv rows pack ∧ row % pack < pack ∧ row / pack * pack + row % pack = row := by
  refine ⟨(ltCeilDiv positive).mpr ?_, Nat.mod_lt _ positive, Nat.div_add_mod' row pack⟩
  exact (Nat.div_mul_le_self row pack).trans_lt inside

/- The rows of the last program stay below the next multiple of the pack. -/
theorem packedRows (divides : pack ∣ 2 ^ 31) {pid slot : ℕ} (program : pid < ceilDiv rows pack) (inside : slot < pack)
    (small : rows < 2 ^ 31) : pid * pack + slot < 2 ^ 31 := by
  have first := (ltCeilDiv (Nat.zero_lt_of_lt inside)).mp program
  obtain ⟨programs, whole⟩ := divides
  have below : pid < programs := by
    by_contra beyond
    have more := Nat.mul_le_mul_right pack (not_lt.mp beyond)
    rw [Nat.mul_comm programs] at more
    omega
  have next := Nat.mul_le_mul_right pack (Nat.succ_le_of_lt below)
  rw [Nat.succ_mul, Nat.mul_comm programs] at next
  omega

/- The guard is right just when the batch is a 32-bit word: otherwise row 2^31 - 1, whose word is the largest one,
is never let through. -/
theorem guardExact (divides : pack ∣ 2 ^ 31) :
    (∀ pid < ceilDiv rows pack, ∀ slot < pack, (rowWord pid slot pack < nbatchArg rows ↔ pid * pack + slot < rows)) ↔
      rows < 2 ^ 31 := by
  have positive : 0 < pack := Nat.pos_of_dvd_of_pos divides (by decide)
  constructor
  · intro guards
    by_contra large
    have inside : 2 ^ 31 - 1 < rows := by omega
    obtain ⟨program, slot, same⟩ := programOf positive inside
    have passes := (guards _ program _ slot).mpr (by omega)
    rw [rowWordLiteral, same, Int32.lt_iff_toInt_lt, literalExact (by omega)] at passes
    have bound := (nbatchArg rows).toInt_lt
    omega
  · intro small pid program slot inside
    rw [rowWordLiteral, nbatchLiteral, Int32.ofNat_lt_iff_lt (packedRows divides program inside small) small]

theorem exactRows (divides : pack ∣ 2 ^ 31) : access.Exact rows pack ↔
    (access.guarded = true → rows < 2 ^ 31) ∧ ∀ row < rows, ∀ element, access.mask element →
      (access.machine (Int32.ofNat rows) (Int32.ofNat row) element).toInt = access.offset row element := by
  have positive : 0 < pack := Nat.pos_of_dvd_of_pos divides (by decide)
  constructor
  · intro exact_
    refine ⟨fun guarded => (guardExact divides).mp fun pid program slot inside => (exact_ pid program slot inside).1 guarded, ?_⟩
    intro row small element active
    obtain ⟨program, slot, same⟩ := programOf positive small
    have here := (exact_ _ program _ slot).2 (by omega) element active
    rwa [rowWordLiteral, nbatchLiteral, same] at here
  · rintro ⟨guards, elements⟩ pid program slot inside
    refine ⟨fun guarded => (guardExact divides).mpr (guards guarded) pid program slot inside, ?_⟩
    intro small element active
    rw [rowWordLiteral, nbatchLiteral]
    exact elements _ small element active

end Rows

/- An access whose offset is computed in 32-bit words throughout: `scale` times the row times the row length and a
column of at most `last`. -/
structure WordAccess where
  Coordinate : Type
  guarded : Bool
  scale : ℕ
  length : ℕ
  last : ℕ
  mask : Coordinate → Prop
  column : Coordinate → ℕ
  machine : Int32 → Int32 → Coordinate → Int32

def WordAccess.access (narrow : WordAccess) : Access where
  Coordinate := narrow.Coordinate
  guarded := narrow.guarded
  mask := narrow.mask
  offset row element := narrow.scale * (row * narrow.length + narrow.column element)
  machine nbatch row element := (narrow.machine nbatch row element).toInt64

/- The offset of the last element a launch over `rows` rows touches. -/
def WordAccess.span (narrow : WordAccess) (rows : ℕ) : ℕ := narrow.scale * ((rows - 1) * narrow.length + narrow.last)

structure WordAccess.Sound (narrow : WordAccess) : Prop where
  bounded : ∀ element, narrow.mask element → narrow.column element ≤ narrow.last
  reached : ∃ element, narrow.mask element ∧ narrow.column element = narrow.last
  computes : ∀ rows row element, row < rows → (narrow.guarded = true → rows < 2 ^ 31) → narrow.span rows < 2 ^ 31 →
    narrow.mask element → narrow.machine (Int32.ofNat rows) (Int32.ofNat row) element =
      Int32.ofNat (narrow.scale * (row * narrow.length + narrow.column element))

theorem WordAccess.offsetBelow {narrow : WordAccess} (sound : narrow.Sound) {rows row : ℕ} (inside : row < rows)
    {element : narrow.Coordinate} (active : narrow.mask element) :
    narrow.scale * (row * narrow.length + narrow.column element) ≤ narrow.span rows := by
  apply Nat.mul_le_mul_left
  exact Nat.add_le_add (Nat.mul_le_mul_right _ (by omega)) (sound.bounded element active)

/- A 32-bit offset is right for all rows just when the last one is a word. -/
theorem wordExact {narrow : WordAccess} (sound : narrow.Sound) {rows pack : ℕ} (divides : pack ∣ 2 ^ 31)
    (positive : 0 < rows) :
    narrow.access.Exact rows pack ↔ (narrow.guarded = true → rows < 2 ^ 31) ∧ narrow.span rows < 2 ^ 31 := by
  rw [exactRows divides]
  constructor
  · rintro ⟨guards, elements⟩
    obtain ⟨element, active, last⟩ := sound.reached
    have here := elements (rows - 1) (by omega) element active
    have bound := (narrow.machine (Int32.ofNat rows) (Int32.ofNat (rows - 1)) element).toInt_lt
    simp only [WordAccess.access, Int32.toInt_toInt64, last] at here
    refine ⟨guards, ?_⟩
    unfold WordAccess.span
    omega
  · rintro ⟨guards, fits⟩
    refine ⟨guards, ?_⟩
    intro row inside element active
    have below := WordAccess.offsetBelow sound inside active
    simp only [WordAccess.access, Int32.toInt_toInt64]
    rw [sound.computes rows row element inside guards fits active]
    exact literalExact (by omega)

end FlagFft.Offsets
