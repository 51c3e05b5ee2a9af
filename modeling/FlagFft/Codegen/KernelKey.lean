import FlagFft.Library.Text

/-! Kernel keys: everything that selects a generated kernel, and the text it is cached under. -/
namespace FlagFft.Codegen
open Library.Text

inductive KernelKind where
  | leaf
  | leafStrided
  | leafPermutedStore
  | leafStridedPermutedStore
  | leafR2C
  | leafR2CPermutedStore
  | leafPackedR2C
  | leafC2R
  | leafBluestein
  | leafRaderFull
  | leafBluesteinPrepare
  | leafBluesteinFinish
  | bluesteinFourStepPrepareRow
  | bluesteinFourStepPointwiseRow
  | bluesteinFourStepFinishCol
  | directDft
  | directDftStrided
  | directDftCube
  | directDftCubeTransposed
  | directDftCubeStrided
  | directDftCube2DRow
  | directDftCube2DCol
  | directDftR2C
  | directDftC2R
  | stockhamStage
  | fourStepRow
  | fourStepRowStrided
  | fourStepRealRow
  | fourStepHermitianRow
  | fourStepCol
  | fourStepColStrided
  | fourStepR2CCol
  | fourStepC2RCol
  | bluesteinPrepare
  | bluesteinPointwise
  | bluesteinFinalize
  | raderPrepare
  | raderPointwise
  | raderFinalize
  | reshapePack
  | twiddleReshapePack
  | realToComplex
  | r2CHalfPack
  | r2CPackedPostprocess
  | c2RPackedPreprocess
  | compactToHermitianFull
  | complexToReal
  | tiledTranspose
  | transpose3D
  | fused16Plane
  | fusedRectPlane
  | fused32Plane
  | fused16RealPlane
  | fused32RealPlane
  | fused16Cube
  | fused16RealCube
  | fused32Column
  | fused2D
  | leafRaderPrepare
  | leafRaderFinish
  | leafPackedC2R
  deriving DecidableEq, Repr

def kernelKindName : KernelKind → String
  | .leaf => "leaf"
  | .leafStrided => "leaf_strided"
  | .leafPermutedStore => "leaf_permuted_store"
  | .leafStridedPermutedStore => "leaf_strided_permuted_store"
  | .leafR2C => "leaf_r2c"
  | .leafR2CPermutedStore => "leaf_r2c_permuted_store"
  | .leafPackedR2C => "leaf_packed_r2c"
  | .leafC2R => "leaf_c2r"
  | .leafBluestein => "leaf_bluestein"
  | .leafRaderFull => "leaf_rader_full"
  | .leafBluesteinPrepare => "leaf_bluestein_prepare"
  | .leafBluesteinFinish => "leaf_bluestein_finish"
  | .bluesteinFourStepPrepareRow => "bluestein_four_step_prepare_row"
  | .bluesteinFourStepPointwiseRow => "bluestein_four_step_pointwise_row"
  | .bluesteinFourStepFinishCol => "bluestein_four_step_finish_col"
  | .directDft => "direct_dft"
  | .directDftStrided => "direct_dft_strided"
  | .directDftCube => "direct_dft_cube"
  | .directDftCubeTransposed => "direct_dft_cube_transposed"
  | .directDftCubeStrided => "direct_dft_cube_strided"
  | .directDftCube2DRow => "direct_dft_cube_2d_row"
  | .directDftCube2DCol => "direct_dft_cube_2d_col"
  | .directDftR2C => "direct_dft_r2c"
  | .directDftC2R => "direct_dft_c2r"
  | .stockhamStage => "stockham_stage"
  | .fourStepRow => "four_step_row"
  | .fourStepRowStrided => "four_step_row_strided"
  | .fourStepRealRow => "four_step_real_row"
  | .fourStepHermitianRow => "four_step_hermitian_row"
  | .fourStepCol => "four_step_col"
  | .fourStepColStrided => "four_step_col_strided"
  | .fourStepR2CCol => "four_step_r2c_col"
  | .fourStepC2RCol => "four_step_c2r_col"
  | .bluesteinPrepare => "bluestein_prepare"
  | .bluesteinPointwise => "bluestein_pointwise"
  | .bluesteinFinalize => "bluestein_finalize"
  | .raderPrepare => "rader_prepare"
  | .raderPointwise => "rader_pointwise"
  | .raderFinalize => "rader_finalize"
  | .reshapePack => "reshape_pack"
  | .twiddleReshapePack => "twiddle_reshape_pack"
  | .realToComplex => "real_to_complex"
  | .r2CHalfPack => "r2c_half_pack"
  | .r2CPackedPostprocess => "r2c_packed_postprocess"
  | .c2RPackedPreprocess => "c2r_packed_preprocess"
  | .compactToHermitianFull => "compact_to_hermitian_full"
  | .complexToReal => "complex_to_real"
  | .tiledTranspose => "tiled_transpose"
  | .transpose3D => "transpose3d"
  | .fused16Plane => "fused_16_plane"
  | .fusedRectPlane => "fused_rect_plane"
  | .fused32Plane => "fused_32_plane"
  | .fused16RealPlane => "fused_16_real_plane"
  | .fused32RealPlane => "fused_32_real_plane"
  | .fused16Cube => "fused_16_cube"
  | .fused16RealCube => "fused_16_real_cube"
  | .fused32Column => "fused_32_column"
  | .fused2D => "fused_2d"
  | .leafRaderPrepare => "leaf_rader_prepare"
  | .leafRaderFinish => "leaf_rader_finish"
  | .leafPackedC2R => "leaf_packed_c2r"

structure KernelKey where
  kind : KernelKind := .leaf
  target : String := ""
  direction : String := "forward"
  dtype : String := "complex64"
  length : ℤ := 0
  factors : List ℤ := []
  lanes : ℤ := 0
  numWarps : ℤ := 0
  genericRadices : List ℤ := []
  smemSize : ℤ := 0
  fourStepN1 : ℤ := 0
  fourStepN2 : ℤ := 0
  bluesteinN : ℤ := 0
  bluesteinM : ℤ := 0
  raderN : ℤ := 0
  raderM : ℤ := 0
  reshapeN1 : ℤ := 0
  reshapeN2 : ℤ := 0
  transpose3dN0 : ℤ := 0
  transpose3dN1 : ℤ := 0
  transpose3dN2 : ℤ := 0
  fusedPlaneN0 : ℤ := 0
  fusedPlaneN1 : ℤ := 0
  fusedPlaneMiddle : ℤ := 0
  transpose3dOrder : String := ""
  permForm : String := "outer"
  npuPortableLeaf : Bool := false
  hcuFullSmem : Bool := false
  hcu3dMiddleBatchPack : ℤ := 0
  deriving DecidableEq, Repr

def bit (flag : Bool) : String := if flag then "1" else "0"

/- Labels with their values, one after the other. -/
def renderFields : List (String × String) → String
  | [] => ""
  | (label, value) :: rest => label ++ value ++ renderFields rest

/- All fields but the last. -/
def KernelKey.fields (key : KernelKey) : List (String × String) :=
  [("kind=", kernelKindName key.kind), (";target=", key.target), (";dtype=", key.dtype),
    (";direction=", key.direction), (";length=", toString key.length),
    (";factors=[", joinInts key.factors ++ "]"), (";lanes=", toString key.lanes),
    (";num_warps=", toString key.numWarps), (";generic_radices=[", joinInts key.genericRadices ++ "]"),
    (";smem_size=", toString key.smemSize), (";four_step_n1=", toString key.fourStepN1),
    (";four_step_n2=", toString key.fourStepN2), (";bluestein_n=", toString key.bluesteinN),
    (";bluestein_m=", toString key.bluesteinM), (";rader_n=", toString key.raderN),
    (";rader_m=", toString key.raderM), (";reshape_n1=", toString key.reshapeN1),
    (";reshape_n2=", toString key.reshapeN2), (";transpose3d_n0=", toString key.transpose3dN0),
    (";transpose3d_n1=", toString key.transpose3dN1), (";transpose3d_n2=", toString key.transpose3dN2),
    (";fused_plane_n0=", toString key.fusedPlaneN0), (";fused_plane_n1=", toString key.fusedPlaneN1),
    (";fused_plane_middle=", toString key.fusedPlaneMiddle), (";order=", key.transpose3dOrder),
    (";perm_form=", key.permForm), (";npu_portable_leaf=", bit key.npuPortableLeaf),
    (";hcu_full_smem=", bit key.hcuFullSmem)]

def KernelKey.repr (key : KernelKey) : String :=
  renderFields key.fields ++ ";hcu_3d_middle_batch_pack=" ++ toString key.hcu3dMiddleBatchPack

section Fields

/- The separator of the fields. -/
def isPlain (c : Char) : Bool := c != ';'

def Plain (text : String) : Prop := ∀ c ∈ text.toList, isPlain c = true

instance (text : String) : Decidable (Plain text) :=
  decidable_of_iff (text.toList.all isPlain = true) List.all_eq_true

theorem plainInt (n : ℤ) : Plain (toString n) := by
  intro c inside
  have digit := intChars n c inside
  unfold isPlain
  by_contra separator
  have same : c = ';' := by simpa using separator
  rw [same] at digit
  cases digit

theorem plainInts (values : List ℤ) : Plain (joinInts values ++ "]") := by
  intro c inside
  rw [String.toList_append] at inside
  rcases List.mem_append.mp inside with number | bracket
  · have digit := joinIntsChars values c number
    unfold isPlain
    by_contra separator
    have same : c = ';' := by simpa using separator
    rw [same] at digit
    cases digit
  · cases List.mem_singleton.mp bracket
    rfl

theorem plainBit (flag : Bool) : Plain (bit flag) := by
  cases flag <;> decide

def opensField (label : String) : Bool := label.toList.head?.any fun c => !isPlain c

/- Every label opens with the separator. -/
def Separated (fields : List (String × String)) : Prop := (fields.map Prod.fst).all opensField = true

theorem separatedCons {field : String × String} {rest : List (String × String)} :
    Separated (field :: rest) ↔ opensField field.1 = true ∧ Separated rest := by
  unfold Separated
  rw [List.map_cons, List.all_cons, Bool.and_eq_true]

theorem separatedAppend {fields fields' : List (String × String)} (first : Separated fields) (second : Separated fields') :
    Separated (fields ++ fields') := by
  unfold Separated at first second ⊢
  rw [List.map_append, List.all_append, first, second]
  rfl

theorem labelEnds {label : String} {rest : List Char} (opens : opensField label = true) :
    Ends isPlain (label.toList ++ rest) := by
  unfold opensField at opens
  cases text : label.toList with
  | nil =>
    rw [text] at opens
    cases opens
  | cons c chars =>
    rw [text] at opens
    exact endsCons (by simpa using opens)

theorem separatedEnds {fields : List (String × String)} {rest : List Char} (separated : Separated fields)
    (ends : Ends isPlain rest) : Ends isPlain ((renderFields fields).toList ++ rest) := by
  cases fields with
  | nil => exact ends
  | cons field later =>
    simp only [renderFields, String.toList_append, List.append_assoc]
    exact labelEnds (separatedCons.mp separated).1

/- Fields of the same labels and of plain values can be read back. -/
theorem splitFields {fields fields' : List (String × String)} {rest rest' : List Char}
    (labels : fields.map Prod.fst = fields'.map Prod.fst) (separated : Separated fields.tail)
    (plain : ∀ field ∈ fields, Plain field.2) (plain' : ∀ field ∈ fields', Plain field.2) (ends : Ends isPlain rest)
    (ends' : Ends isPlain rest')
    (same : (renderFields fields).toList ++ rest = (renderFields fields').toList ++ rest') :
    fields = fields' ∧ rest = rest' := by
  induction fields generalizing fields' with
  | nil =>
    cases List.map_eq_nil_iff.mp labels.symm
    exact ⟨rfl, same⟩
  | cons field later ih =>
    cases fields' with
    | nil => cases labels
    | cons field' later' =>
      obtain ⟨label, value⟩ := field
      obtain ⟨label', value'⟩ := field'
      obtain ⟨rfl, laterLabels⟩ := List.cons.inj labels
      have separated' : Separated later' := by
        unfold Separated at separated ⊢
        rw [← laterLabels]
        exact separated
      simp only [renderFields, String.toList_append, List.append_assoc] at same
      obtain ⟨values, remaining⟩ := splitWord (plain _ List.mem_cons_self) (plain' _ List.mem_cons_self)
        (separatedEnds separated ends) (separatedEnds separated' ends') (List.append_cancel_left same)
      have tail : Separated later.tail := by
        cases later with
        | nil => rfl
        | cons next rest => exact (separatedCons.mp separated).2
      obtain ⟨equal, last⟩ := ih laterLabels tail
        (fun other inside => plain other (List.mem_cons_of_mem _ inside))
        (fun other inside => plain' other (List.mem_cons_of_mem _ inside)) remaining
      cases String.toList_injective values
      exact ⟨by rw [equal], last⟩

end Fields

section Injective

def kernelKinds : List KernelKind :=
  [.leaf, .leafStrided, .leafPermutedStore, .leafStridedPermutedStore, .leafR2C, .leafR2CPermutedStore,
    .leafPackedR2C, .leafC2R, .leafBluestein, .leafRaderFull, .leafBluesteinPrepare, .leafBluesteinFinish,
    .bluesteinFourStepPrepareRow, .bluesteinFourStepPointwiseRow, .bluesteinFourStepFinishCol, .directDft,
    .directDftStrided, .directDftCube, .directDftCubeTransposed, .directDftCubeStrided, .directDftCube2DRow,
    .directDftCube2DCol, .directDftR2C, .directDftC2R, .stockhamStage, .fourStepRow, .fourStepRowStrided,
    .fourStepRealRow, .fourStepHermitianRow, .fourStepCol, .fourStepColStrided, .fourStepR2CCol,
    .fourStepC2RCol, .bluesteinPrepare, .bluesteinPointwise, .bluesteinFinalize, .raderPrepare,
    .raderPointwise, .raderFinalize, .reshapePack, .twiddleReshapePack, .realToComplex, .r2CHalfPack,
    .r2CPackedPostprocess, .c2RPackedPreprocess, .compactToHermitianFull, .complexToReal, .tiledTranspose,
    .transpose3D, .fused16Plane, .fusedRectPlane, .fused32Plane, .fused16RealPlane, .fused32RealPlane,
    .fused16Cube, .fused16RealCube, .fused32Column, .fused2D, .leafRaderPrepare, .leafRaderFinish,
    .leafPackedC2R]

def kernelKindNamed (name : String) : Option KernelKind := kernelKinds.find? fun kind => kernelKindName kind == name

theorem kernelKindNamedName (kind : KernelKind) : kernelKindNamed (kernelKindName kind) = some kind := by
  cases kind <;> rfl

theorem kernelKindInjective {kind kind' : KernelKind} (same : kernelKindName kind = kernelKindName kind') : kind = kind' := by
  have found := kernelKindNamedName kind
  rw [same, kernelKindNamedName] at found
  exact (Option.some.inj found).symm

theorem bitInjective {flag flag' : Bool} (same : bit flag = bit flag') : flag = flag' := by
  cases flag <;> cases flag' <;> first | rfl | exact absurd same (by decide)

theorem textInjective {n n' : ℤ} (same : toString n = toString n') : n = n' :=
  intInjective (congrArg String.toList same)

theorem listInjective {values values' : List ℤ} (same : joinInts values ++ "]" = joinInts values' ++ "]") :
    values = values' := by
  have texts := congrArg String.toList same
  rw [String.toList_append, String.toList_append] at texts
  exact joinIntsInjective (List.append_cancel_right texts)

/- The fields and the last number are the whole key. -/
theorem keyFieldsInjective {key key' : KernelKey} (same : key.fields = key'.fields)
    (last : key.hcu3dMiddleBatchPack = key'.hcu3dMiddleBatchPack) : key = key' := by
  cases key
  cases key'
  simp only [KernelKey.fields, List.cons.injEq, Prod.mk.injEq, true_and, and_true] at same last
  obtain ⟨kind, target, dtype, direction, length, factors, lanes, numWarps, genericRadices, smemSize, fourStepN1,
    fourStepN2, bluesteinN, bluesteinM, raderN, raderM, reshapeN1, reshapeN2, transposeN0, transposeN1, transposeN2,
    planeN0, planeN1, planeMiddle, order, permForm, portable, full⟩ := same
  simp only [kernelKindInjective kind, target, dtype, direction, textInjective length, listInjective factors,
    textInjective lanes, textInjective numWarps, listInjective genericRadices, textInjective smemSize,
    textInjective fourStepN1, textInjective fourStepN2, textInjective bluesteinN, textInjective bluesteinM,
    textInjective raderN, textInjective raderM, textInjective reshapeN1, textInjective reshapeN2,
    textInjective transposeN0, textInjective transposeN1, textInjective transposeN2, textInjective planeN0,
    textInjective planeN1, textInjective planeMiddle, order, permForm, bitInjective portable, bitInjective full, last]

/- The texts of a key are plain where its five text fields are. -/
structure PlainKey (key : KernelKey) : Prop where
  target : Plain key.target
  dtype : Plain key.dtype
  direction : Plain key.direction
  order : Plain key.transpose3dOrder
  permForm : Plain key.permForm

theorem plainKind (kind : KernelKind) : Plain (kernelKindName kind) := by
  have plain : (kernelKindName kind).toList.all isPlain = true := by cases kind <;> rfl
  exact List.all_eq_true.mp plain

theorem plainFields {key : KernelKey} (plain : PlainKey key) : ∀ field ∈ key.fields, Plain field.2 := by
  simp only [KernelKey.fields, List.forall_mem_cons, List.not_mem_nil, false_imp_iff, implies_true, plainKind, plainInt,
    plainInts, plainBit, plain.target, plain.dtype, plain.direction, plain.order, plain.permForm, and_self]

end Injective

end FlagFft.Codegen
