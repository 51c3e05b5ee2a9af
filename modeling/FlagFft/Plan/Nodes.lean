import FlagFft.Library.Text

/-! Plan trees, and the textual key under which a plan is stored and compared. -/
namespace FlagFft.Plan
open Library.Text

inductive PlanNodeKind where
  | ctLeaf
  | fourStep
  | directDft
  | stockhamAutosort
  | bluestein
  | rader
  | twoDim
  | threeDim
  deriving DecidableEq, Repr

def planNodeKindName : PlanNodeKind → String
  | .ctLeaf => "ct_leaf"
  | .fourStep => "four_step"
  | .directDft => "direct_dft"
  | .stockhamAutosort => "stockham_autosort"
  | .bluestein => "bluestein"
  | .rader => "rader"
  | .twoDim => "two_dim"
  | .threeDim => "three_dim"

inductive TwoDimStrategy where
  | rtrt
  deriving DecidableEq, Repr

inductive ThreeDimStrategy where
  | rtrt
  deriving DecidableEq, Repr

inductive PlanNode where
  | leaf (length : ℤ) (factors : List ℤ) (remainder lanes numWarps : ℤ) (genericRadices : List ℤ) (smemSize : ℤ)
  | directDft (length : ℤ)
  | stockham (length : ℤ) (factors : List ℤ)
  | fourStep (length n1 n2 : ℤ) (rowPlan colPlan : PlanNode)
  | bluestein (length convLength : ℤ) (fftPlan : PlanNode)
  | rader (prime root : ℤ) (idx : List ℤ) (convPlan : PlanNode)
  | twoDim (n0 n1 : ℤ) (strategy : TwoDimStrategy) (rowPlan colPlan : PlanNode)
  | threeDim (n0 n1 n2 : ℤ) (strategy : ThreeDimStrategy) (n2Plan n1Plan n0Plan : PlanNode)
  deriving DecidableEq, Repr

/- What the constructors hand to the base class. The products of the two- and three-dimensional nodes are
signed: where they do not fit in their type the constructor has no defined result, and there is no node. -/
def PlanNode.length : PlanNode → ℤ
  | .leaf length .. => length
  | .directDft length => length
  | .stockham length _ => length
  | .fourStep length .. => length
  | .bluestein length .. => length
  | .rader prime .. => prime
  | .twoDim n0 n1 .. => n0 * n1
  | .threeDim n0 n1 n2 .. => n0 * n1 * n2

def PlanNode.kind : PlanNode → PlanNodeKind
  | .leaf .. => .ctLeaf
  | .directDft _ => .directDft
  | .stockham .. => .stockhamAutosort
  | .fourStep .. => .fourStep
  | .bluestein .. => .bluestein
  | .rader .. => .rader
  | .twoDim .. => .twoDim
  | .threeDim .. => .threeDim

def kPlanSchemaVersion : ℤ := 3

structure PlanKey where
  schemaVersion : ℤ := kPlanSchemaVersion
  rootKind : PlanNodeKind := .ctLeaf
  length : ℤ := 0
  factors : List ℤ := []
  remainder : ℤ := 1
  lanes : ℤ := 0
  numWarps : ℤ := 0
  genericRadices : List ℤ := []
  smemSize : ℤ := 0
  n1 : ℤ := 0
  n2 : ℤ := 0
  convLength : ℤ := 0
  root : ℤ := 0
  childKeys : List String := []
  deriving DecidableEq, Repr

/- The children in braces, with bars between them. -/
def joinChildren : List String → String
  | [] => ""
  | [key] => "\x7b" ++ key ++ "\x7d"
  | key :: next :: rest => "\x7b" ++ key ++ "\x7d|" ++ joinChildren (next :: rest)

/- The third dimension is not stored: it is recovered from the length. -/
def PlanKey.thirdDim (key : PlanKey) : ℤ := if 0 < key.n2 then key.length.tdiv (key.n1 * key.n2) else 0

def PlanKey.repr (key : PlanKey) : String :=
  "schema=" ++ toString key.schemaVersion ++ ";kind=" ++ planNodeKindName key.rootKind ++ ";length=" ++
    toString key.length ++
  (if key.factors = [] then "" else ";factors=[" ++ joinInts key.factors ++ "]") ++
  (if key.rootKind = .ctLeaf then
    ";remainder=" ++ toString key.remainder ++ ";lanes=" ++ toString key.lanes ++ ";num_warps=" ++ toString key.numWarps ++
      ";generic_radices=[" ++ joinInts key.genericRadices ++ "];smem_size=" ++ toString key.smemSize
  else "") ++
  (if key.rootKind = .fourStep then ";n1=" ++ toString key.n1 ++ ";n2=" ++ toString key.n2 else "") ++
  (if key.rootKind = .twoDim then ";n0=" ++ toString key.n1 ++ ";n1=" ++ toString key.n2 else "") ++
  (if key.rootKind = .threeDim then
    ";n0=" ++ toString key.n1 ++ ";n1=" ++ toString key.n2 ++ ";n2=" ++ toString key.thirdDim
  else "") ++
  (if key.rootKind = .bluestein then ";conv_length=" ++ toString key.convLength else "") ++
  (if key.rootKind = .rader then
    ";conv_length=" ++ toString key.convLength ++ ";root=" ++ toString key.root ++ ";idx=[" ++ joinInts key.factors ++ "]"
  else "") ++
  (if key.childKeys = [] then "" else ";children=[" ++ joinChildren key.childKeys ++ "]")

def PlanKey.fromNode : PlanNode → PlanKey
  | .leaf length factors remainder lanes numWarps genericRadices smemSize =>
    { rootKind := .ctLeaf, length, factors, remainder, lanes, numWarps, genericRadices, smemSize }
  | .directDft length => { rootKind := .directDft, length }
  | .stockham length factors => { rootKind := .stockhamAutosort, length, factors }
  | .fourStep length n1 n2 rowPlan colPlan =>
    { rootKind := .fourStep, length, n1, n2, childKeys := [(fromNode rowPlan).repr, (fromNode colPlan).repr] }
  | .bluestein length convLength fftPlan =>
    { rootKind := .bluestein, length, convLength, childKeys := [(fromNode fftPlan).repr] }
  | .rader prime root idx convPlan =>
    { rootKind := .rader, length := prime, convLength := prime - 1, root, factors := idx,
      childKeys := [(fromNode convPlan).repr] }
  | .twoDim n0 n1 _ rowPlan colPlan =>
    { rootKind := .twoDim, length := n0 * n1, n1 := n0, n2 := n1,
      childKeys := [(fromNode rowPlan).repr, (fromNode colPlan).repr] }
  | .threeDim n0 n1 n2 _ n2Plan n1Plan n0Plan =>
    { rootKind := .threeDim, length := n0 * n1 * n2, n1 := n0, n2 := n1,
      childKeys := [(fromNode n2Plan).repr, (fromNode n1Plan).repr, (fromNode n0Plan).repr] }

example : (PlanKey.fromNode (.stockham 12 [4, 3])).repr = "schema=3;kind=stockham_autosort;length=12;factors=[4,3]" := by
  decide

end FlagFft.Plan
