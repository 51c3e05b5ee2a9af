import FlagFft.Device
import FlagFft.Library.Words

/-! Plan descriptors: how the arguments of a plan call become one, which ones are supported, and the request
each becomes. Arguments are 32-bit words, descriptors hold 64-bit ones. -/
namespace FlagFft.Api
open Library.Words

/- A C enumeration can hold other codes than its own. -/
inductive TransformType where
  | c2c
  | z2z
  | r2c
  | d2z
  | c2r
  | z2d
  | other (code : Int32)
  deriving DecidableEq

def TransformType.realForward : TransformType → Bool
  | .r2c => true
  | .d2z => true
  | _ => false

def TransformType.realInverse : TransformType → Bool
  | .c2r => true
  | .z2d => true
  | _ => false

def TransformType.known : TransformType → Bool
  | .other _ => false
  | _ => true

inductive Precision where
  | float32
  | float64
  deriving DecidableEq

/- Precision, real input, real output. -/
def typeMetadata : TransformType → Except Failure (Precision × Bool × Bool)
  | .c2c => .ok (.float32, false, false)
  | .z2z => .ok (.float64, false, false)
  | .r2c => .ok (.float32, true, false)
  | .d2z => .ok (.float64, true, false)
  | .c2r => .ok (.float32, false, true)
  | .z2d => .ok (.float64, false, true)
  | .other _ => .error .invalidType

structure PlanDesc where
  rank : Int32
  n : List Int64
  inembed : List Int64
  istride : Int64
  idist : Int64
  onembed : List Int64
  ostride : Int64
  odist : Int64
  batch : Int64
  type : TransformType
  precision : Precision
  realInput : Bool
  realOutput : Bool
  deriving DecidableEq

/- What an `int *` argument points at: the elements below the rank are there to be read. -/
abbrev Ints := ℕ → Int32

def copyDims (values : Ints) (rank : Int32) : List Int64 :=
  (List.range rank.toInt.toNat).map fun i => (values i).toInt64

structure PlanManyArguments where
  rank : Int32
  n : Option Ints
  inembed : Option Ints
  istride : Int32
  idist : Int32
  onembed : Option Ints
  ostride : Int32
  odist : Int32
  type : TransformType
  batch : Int32

/- The embedding of a null pointer: the dimensions, the last one halved where the data is half-packed. -/
def defaultEmbed (half : Bool) (n : List Int64) : List Int64 :=
  match half, n with
  | true, [n0] => [n0 / 2 + 1]
  | true, [n0, n1] => [n0, n1 / 2 + 1]
  | true, [n0, n1, n2] => [n0, n1, n2 / 2 + 1]
  | _, n => n

def effectiveEmbed (embed : Option Ints) (rank : Int32) (half : Bool) (n : List Int64) : List Int64 :=
  match embed with
  | some values => copyDims values rank
  | none => defaultEmbed half n

/- The descriptor flagfftPlanMany hands to the builder. -/
def planMany (arguments : PlanManyArguments) : Except Failure PlanDesc :=
  match arguments.n with
  | none => .error .invalidValue
  | some n =>
    if arguments.rank ≤ 0 ∨ arguments.batch ≤ 0 then .error .invalidValue
    else if (List.range arguments.rank.toInt.toNat).any fun i => n i ≤ 0 then .error .invalidSize
    else
      match typeMetadata arguments.type with
      | .error failure => .error failure
      | .ok (precision, realInput, realOutput) =>
        let dims := copyDims n arguments.rank
        .ok {
          rank := arguments.rank
          n := dims
          inembed := effectiveEmbed arguments.inembed arguments.rank arguments.type.realInverse dims
          istride := arguments.istride.toInt64
          idist := arguments.idist.toInt64
          onembed := effectiveEmbed arguments.onembed arguments.rank arguments.type.realForward dims
          ostride := arguments.ostride.toInt64
          odist := arguments.odist.toInt64
          batch := arguments.batch.toInt64
          type := arguments.type
          precision, realInput, realOutput }

def isSupportedMinimalDesc (desc : PlanDesc) : Bool :=
  if desc.rank ≠ 1 ∨ desc.batch ≤ 0 then false
  else if !desc.type.known then false
  else
    match desc.n with
    | [n] =>
      if n ≤ 0 then false
      else
        let realForward := desc.type.realForward
        let realInverse := desc.type.realInverse
        let compactLength := n / 2 + 1
        let paddedRealLength := 2 * compactLength
        let inputLength := if realInverse then compactLength else n
        let outputLength := if realForward then compactLength else n
        let validInputDistance := desc.idist == inputLength || (realForward && desc.idist == paddedRealLength)
        let validOutputDistance := desc.odist == outputLength || (realInverse && desc.odist == paddedRealLength)
        let validInputEmbed := match desc.inembed with
          | [embed] => embed == inputLength || (realForward && embed == paddedRealLength)
          | _ => false
        let validOutputEmbed := match desc.onembed with
          | [embed] => embed == outputLength || (realInverse && embed == paddedRealLength)
          | _ => false
        desc.istride == 1 && desc.ostride == 1 && validInputDistance && validOutputDistance && validInputEmbed &&
          validOutputEmbed
    | _ => false

/- Neither this nor the three-dimensional check looks at the embeddings. -/
def isSupported2dDesc (desc : PlanDesc) : Bool :=
  if desc.rank ≠ 2 ∨ desc.batch ≤ 0 then false
  else if !desc.type.known then false
  else
    match desc.n with
    | [n0, n1] =>
      if n0 ≤ 0 ∨ n1 ≤ 0 then false
      else if desc.istride ≠ 1 ∨ desc.ostride ≠ 1 then false
      else
        let halfN1 := n1 / 2 + 1
        let inputLogical := if desc.type.realInverse then n0 * halfN1 else n0 * n1
        let outputLogical := if desc.type.realForward then n0 * halfN1 else n0 * n1
        if desc.idist ≠ inputLogical ∨ desc.odist ≠ outputLogical then false else true
    | _ => false

def isSupported3dDesc (desc : PlanDesc) : Bool :=
  if desc.rank ≠ 3 ∨ desc.batch ≤ 0 then false
  else if !desc.type.known then false
  else
    match desc.n with
    | [n0, n1, n2] =>
      if n0 ≤ 0 ∨ n1 ≤ 0 ∨ n2 ≤ 0 then false
      else if desc.istride ≠ 1 ∨ desc.ostride ≠ 1 then false
      else
        let halfN2 := n2 / 2 + 1
        let inputLogical := if desc.type.realInverse then n0 * n1 * halfN2 else n0 * n1 * n2
        let outputLogical := if desc.type.realForward then n0 * n1 * halfN2 else n0 * n1 * n2
        if desc.idist ≠ inputLogical ∨ desc.odist ≠ outputLogical then false else true
    | _ => false

structure Request where
  fftLength : Int64
  inputShape : List Int64
  inputStrides : List Int64
  rawDim : Int64
  normalizedDim : Int64
  originRank : Int64
  realTransform : Bool
  realTransformKind : String
  originRealTransformKind : String
  requestedN : Int64
  inputDtype : String
  outputDtype : String
  direction : String
  batch : Int64
  deriving DecidableEq

def realTransformKind : TransformType → String
  | .r2c => "r2c"
  | .c2r => "c2r"
  | .d2z => "d2z"
  | .z2d => "z2d"
  | _ => ""

/- Shape, strides and dimension by rank; the last case is the three-dimensional one. -/
def requestShape (desc : PlanDesc) : List Int64 × List Int64 × Int64 :=
  match desc.rank, desc.n with
  | 1, n :: _ => ([desc.batch, n], [desc.idist, desc.istride], 1)
  | 2, n0 :: n1 :: _ => ([desc.batch, n0, n1], [desc.idist, n1 * desc.istride, desc.istride], 2)
  | _, n0 :: n1 :: n2 :: _ =>
    ([desc.batch, n0, n1, n2], [desc.idist, n1 * n2 * desc.istride, n2 * desc.istride, desc.istride], 3)
  | _, _ => ([], [], 3)

def requestFromDesc (desc : PlanDesc) (direction : String) (originRank : Int64) : Request :=
  let logicalSize := wordProduct desc.n
  let fftLength := if desc.rank = 1 then desc.n.headD 0 else logicalSize
  let (inputShape, inputStrides, dim) := requestShape desc
  let dtype := if desc.precision = .float64 then "complex128" else "complex64"
  { fftLength, inputShape, inputStrides, rawDim := dim, normalizedDim := dim
    originRank := if originRank ≠ 0 then originRank else desc.rank.toInt64
    realTransform := desc.type.realForward || desc.type.realInverse
    realTransformKind := realTransformKind desc.type
    originRealTransformKind := realTransformKind desc.type
    requestedN := fftLength
    inputDtype := dtype, outputDtype := dtype
    direction, batch := desc.batch }

section Spec
variable {arguments : PlanManyArguments} {desc : PlanDesc}

/- What a descriptor owes to its arguments. -/
structure Describes (arguments : PlanManyArguments) (desc : PlanDesc) (n : Ints) : Prop where
  dims : arguments.n = some n
  positive : ∀ i < arguments.rank.toInt.toNat, 0 < (n i).toInt
  batched : 0 < arguments.batch.toInt
  rank : desc.rank = arguments.rank
  n_ : desc.n = copyDims n arguments.rank
  inembed : desc.inembed = effectiveEmbed arguments.inembed arguments.rank arguments.type.realInverse desc.n
  istride : desc.istride = arguments.istride.toInt64
  idist : desc.idist = arguments.idist.toInt64
  onembed : desc.onembed = effectiveEmbed arguments.onembed arguments.rank arguments.type.realForward desc.n
  ostride : desc.ostride = arguments.ostride.toInt64
  odist : desc.odist = arguments.odist.toInt64
  batch : desc.batch = arguments.batch.toInt64
  type : desc.type = arguments.type

theorem planManyDescribes (built : planMany arguments = .ok desc) : ∃ n, Describes arguments desc n := by
  unfold planMany at built
  split at built
  · cases built
  · rename_i n dims
    split at built
    · cases built
    · rename_i legal
      split at built
      · cases built
      · rename_i sizes
        split at built
        · cases built
        · cases built
          have sized : ∀ i < arguments.rank.toInt.toNat, 0 < (n i).toInt := by
            intro i small
            simp only [List.any_eq_true, List.mem_range, decide_eq_true_eq, not_exists, not_and, Int32.le_iff_toInt_le] at sizes
            exact Int.not_le.mp (sizes i small)
          have batched : 0 < arguments.batch.toInt := by
            simp only [not_or, Int32.le_iff_toInt_le] at legal
            exact Int.not_le.mp legal.2
          exact ⟨n, dims, sized, batched, rfl, rfl, rfl, rfl, rfl, rfl, rfl, rfl, rfl, rfl⟩

end Spec

end FlagFft.Api
