import FlagFft.Plan.Nodes

/-! Plan keys are unambiguous: the text of a key can be read back field by field, and its children in their
braces, so that two trees with one key are one tree. -/
namespace FlagFft.Plan
open Library.Text

section Texts

def intText (n : ℤ) : List Char := (toString n).toList

def intsText (values : List ℤ) : List Char := (joinInts values).toList

def nodeText (node : PlanNode) : List Char := (PlanKey.fromNode node).repr.toList

/- Factors are written only where there are some. -/
def factorsText (factors : List ℤ) : List Char :=
  if factors = [] then [] else ";factors=[".toList ++ (intsText factors ++ "]".toList)

theorem noFactorsText : factorsText [] = [] := if_pos rfl

theorem optionalText (present : Prop) [Decidable present] (text : String) :
    (if present then text else "").toList = if present then text.toList else [] := by
  split <;> rfl

theorem factorsTextEq (values : List ℤ) :
    (if values = [] then "" else ";factors=[" ++ joinInts values ++ "]").toList = factorsText values := by
  unfold factorsText intsText
  split
  · rfl
  · rw [String.toList_append, String.toList_append, List.append_assoc]

theorem reprText (key : PlanKey) : key.repr.toList =
    "schema=".toList ++ (intText key.schemaVersion ++ (";kind=".toList ++ ((planNodeKindName key.rootKind).toList ++
      (";length=".toList ++ (intText key.length ++ (factorsText key.factors ++
      ((if key.rootKind = .ctLeaf then ";remainder=".toList ++ (intText key.remainder ++ (";lanes=".toList ++
        (intText key.lanes ++ (";num_warps=".toList ++ (intText key.numWarps ++ (";generic_radices=[".toList ++
        (intsText key.genericRadices ++ ("];smem_size=".toList ++ intText key.smemSize)))))))) else []) ++
      ((if key.rootKind = .fourStep then ";n1=".toList ++ (intText key.n1 ++ (";n2=".toList ++ intText key.n2)) else []) ++
      ((if key.rootKind = .twoDim then ";n0=".toList ++ (intText key.n1 ++ (";n1=".toList ++ intText key.n2)) else []) ++
      ((if key.rootKind = .threeDim then ";n0=".toList ++ (intText key.n1 ++ (";n1=".toList ++ (intText key.n2 ++
        (";n2=".toList ++ intText key.thirdDim)))) else []) ++
      ((if key.rootKind = .bluestein then ";conv_length=".toList ++ intText key.convLength else []) ++
      ((if key.rootKind = .rader then ";conv_length=".toList ++ (intText key.convLength ++ (";root=".toList ++
        (intText key.root ++ (";idx=[".toList ++ (intsText key.factors ++ "]".toList))))) else []) ++
      (if key.childKeys = [] then [] else ";children=[".toList ++ ((joinChildren key.childKeys).toList ++
        "]".toList)))))))))))))) := by
  have children : (if key.childKeys = [] then "" else ";children=[" ++ joinChildren key.childKeys ++ "]").toList =
      if key.childKeys = [] then [] else ";children=[".toList ++ ((joinChildren key.childKeys).toList ++ "]".toList) := by
    split
    · rfl
    · rw [String.toList_append, String.toList_append, List.append_assoc]
  unfold PlanKey.repr
  simp only [String.toList_append, optionalText, factorsTextEq, children, List.append_assoc]
  rfl

end Texts

section Fields
variable (rest : List Char)

/- What follows the length, kind by kind, and what follows it in turn. -/
def leafText (factors : List ℤ) (remainder lanes numWarps : ℤ) (genericRadices : List ℤ) (smemSize : ℤ) : List Char :=
  factorsText factors ++ (";remainder=".toList ++ (intText remainder ++ (";lanes=".toList ++ (intText lanes ++
    (";num_warps=".toList ++ (intText numWarps ++ (";generic_radices=[".toList ++ (intsText genericRadices ++
    ("];smem_size=".toList ++ (intText smemSize ++ rest))))))))))

def onlyChildText (child : PlanNode) : List Char :=
  ";children=[".toList ++ ("\x7b".toList ++ (nodeText child ++ ("\x7d".toList ++ ("]".toList ++ rest))))

def twoChildrenText (first second : PlanNode) : List Char :=
  ";children=[".toList ++ ("\x7b".toList ++ (nodeText first ++ ("\x7d|".toList ++ ("\x7b".toList ++ (nodeText second ++
    ("\x7d".toList ++ ("]".toList ++ rest)))))))

def threeChildrenText (first second third : PlanNode) : List Char :=
  ";children=[".toList ++ ("\x7b".toList ++ (nodeText first ++ ("\x7d|".toList ++ ("\x7b".toList ++ (nodeText second ++
    ("\x7d|".toList ++ ("\x7b".toList ++ (nodeText third ++ ("\x7d".toList ++ ("]".toList ++ rest))))))))))

def fourStepText (n1 n2 : ℤ) (rowPlan colPlan : PlanNode) : List Char :=
  ";n1=".toList ++ (intText n1 ++ (";n2=".toList ++ (intText n2 ++ twoChildrenText rest rowPlan colPlan)))

def bluesteinText (convLength : ℤ) (fftPlan : PlanNode) : List Char :=
  ";conv_length=".toList ++ (intText convLength ++ onlyChildText rest fftPlan)

def raderText (convLength root : ℤ) (idx : List ℤ) (convPlan : PlanNode) : List Char :=
  factorsText idx ++ (";conv_length=".toList ++ (intText convLength ++ (";root=".toList ++ (intText root ++
    (";idx=[".toList ++ (intsText idx ++ ("]".toList ++ onlyChildText rest convPlan)))))))

def twoDimText (n0 n1 : ℤ) (rowPlan colPlan : PlanNode) : List Char :=
  ";n0=".toList ++ (intText n0 ++ (";n1=".toList ++ (intText n1 ++ twoChildrenText rest rowPlan colPlan)))

def threeDimText (n0 n1 n2 : ℤ) (n2Plan n1Plan n0Plan : PlanNode) : List Char :=
  ";n0=".toList ++ (intText n0 ++ (";n1=".toList ++ (intText n1 ++ (";n2=".toList ++ (intText n2 ++
    threeChildrenText rest n2Plan n1Plan n0Plan)))))

def fieldsText : PlanNode → List Char
  | .leaf _ factors remainder lanes numWarps genericRadices smemSize =>
    leafText rest factors remainder lanes numWarps genericRadices smemSize
  | .directDft _ => rest
  | .stockham _ factors => factorsText factors ++ rest
  | .fourStep _ n1 n2 rowPlan colPlan => fourStepText rest n1 n2 rowPlan colPlan
  | .bluestein _ convLength fftPlan => bluesteinText rest convLength fftPlan
  | .rader prime root idx convPlan => raderText rest (prime - 1) root idx convPlan
  | .twoDim n0 n1 _ rowPlan colPlan => twoDimText rest n0 n1 rowPlan colPlan
  | .threeDim n0 n1 n2 _ n2Plan n1Plan n0Plan =>
    threeDimText rest n0 n1 (if 0 < n1 then (n0 * n1 * n2).tdiv (n0 * n1) else 0) n2Plan n1Plan n0Plan

theorem keyText (node : PlanNode) : nodeText node ++ rest =
    "schema=".toList ++ (intText kPlanSchemaVersion ++ (";kind=".toList ++ ((planNodeKindName node.kind).toList ++
      (";length=".toList ++ (intText node.length ++ fieldsText rest node))))) := by
  unfold nodeText
  rw [reprText]
  cases node <;>
    simp only [PlanKey.fromNode, PlanKey.thirdDim, PlanNode.kind, PlanNode.length, joinChildren, noFactorsText,
      reduceCtorEq, if_true, if_false, String.toList_append, List.append_nil, List.nil_append, List.append_assoc] <;>
    rfl

end Fields

section Reading
variable {r r' : List Char} {m n : ℤ}

/- A key ends, or the brace it stands in does. -/
def Closed (rest : List Char) : Prop := Ends (fun c => c != '}') rest

theorem endsLabel {alphabet : Char → Bool} {label : List Char} (stops : label.head?.any (fun c => !alphabet c) = true) :
    Ends alphabet (label ++ r) := by
  cases label with
  | nil => cases stops
  | cons c label => exact endsCons (by simpa using stops)

theorem Closed.ends {alphabet : Char → Bool} (closed : Closed r) (outside : alphabet '}' = false) : Ends alphabet r := by
  intro c first
  have brace := closed c first
  have same : c = '}' := by simpa using brace
  rw [same]
  exact outside

theorem splitField {label : List Char} (ends : Ends isInt r) (ends' : Ends isInt r')
    (same : label ++ (intText m ++ r) = label ++ (intText n ++ r')) : m = n ∧ r = r' :=
  splitInt ends ends' (List.append_cancel_left same)

theorem splitList {label : List Char} {values values' : List ℤ} (ends : Ends isIntOrComma r) (ends' : Ends isIntOrComma r')
    (same : label ++ (intsText values ++ r) = label ++ (intsText values' ++ r')) : values = values' ∧ r = r' :=
  splitInts ends ends' (List.append_cancel_left same)

/- The label of the factors, which no other field shares. -/
def NoFactors (rest : List Char) : Prop := rest.head? = some ';' → rest[1]? ≠ some 'f'

theorem Closed.noFactors (closed : Closed r) : NoFactors r := by
  intro first
  exact absurd (closed ';' first) (by decide)

theorem labelFree {label : List Char} (other : label[1]?.any (fun c => c != 'f') = true) : NoFactors (label ++ r) := by
  match label with
  | [] => cases other
  | [_] => cases other
  | _ :: second :: rest =>
    intro _ found
    have different : second ≠ 'f' := by simpa using other
    exact different (by simpa using found)

/- Whether there are factors shows in the first two characters. -/
theorem splitFactors {values values' : List ℤ} (next : NoFactors r) (next' : NoFactors r')
    (same : factorsText values ++ r = factorsText values' ++ r') : values = values' ∧ r = r' := by
  have written : ∀ {values : List ℤ}, values ≠ [] → ∀ rest, ¬ NoFactors (factorsText values ++ rest) := by
    intro values some rest free
    unfold factorsText at free
    rw [if_neg some] at free
    exact free rfl rfl
  cases values with
  | nil =>
    cases values' with
    | nil => exact ⟨rfl, same⟩
    | cons value values' =>
      rw [noFactorsText, List.nil_append] at same
      rw [same] at next
      exact absurd next (written (List.cons_ne_nil _ _) r')
  | cons value values =>
    cases values' with
    | nil =>
      rw [noFactorsText, List.nil_append] at same
      rw [← same] at next'
      exact absurd next' (written (List.cons_ne_nil _ _) r)
    | cons value' values' =>
      unfold factorsText at same
      rw [if_neg (List.cons_ne_nil _ _), if_neg (List.cons_ne_nil _ _), List.append_assoc, List.append_assoc,
        List.append_assoc, List.append_assoc] at same
      obtain ⟨equal, rest⟩ := splitList (endsLabel rfl) (endsLabel rfl) same
      exact ⟨equal, List.append_cancel_left rest⟩

end Reading

/- The dimensions of the two- and three-dimensional nodes are positive. -/
def PlanNode.Positive : PlanNode → Prop
  | .leaf .. => True
  | .directDft _ => True
  | .stockham .. => True
  | .fourStep _ _ _ rowPlan colPlan => rowPlan.Positive ∧ colPlan.Positive
  | .bluestein _ _ fftPlan => fftPlan.Positive
  | .rader _ _ _ convPlan => convPlan.Positive
  | .twoDim n0 n1 _ rowPlan colPlan => 0 < n0 ∧ 0 < n1 ∧ rowPlan.Positive ∧ colPlan.Positive
  | .threeDim n0 n1 n2 _ n2Plan n1Plan n0Plan =>
    0 < n0 ∧ 0 < n1 ∧ 0 < n2 ∧ n2Plan.Positive ∧ n1Plan.Positive ∧ n0Plan.Positive

section Trees
variable {r r' : List Char} {a b : PlanNode}

/- No other tree has a text that goes on like this one's. -/
def Unambiguous (a : PlanNode) : Prop := ∀ b r r', b.Positive → Closed r → Closed r' →
  nodeText a ++ r = nodeText b ++ r' → a = b ∧ r = r'

theorem kindInjective {k k' : PlanNodeKind} (same : (planNodeKindName k).toList = (planNodeKindName k').toList) : k = k' := by
  have names := String.toList_injective same
  cases k <;> cases k' <;> first | rfl | exact absurd names (by decide)

theorem kindWord (k : PlanNodeKind) : ∀ c ∈ (planNodeKindName k).toList, (c != ';') = true := by
  have word : (planNodeKindName k).toList.all (fun c => c != ';') = true := by cases k <;> rfl
  exact List.all_eq_true.mp word

theorem factorsEnd {factors : List ℤ} (ends : Ends isInt r) : Ends isInt (factorsText factors ++ r) := by
  unfold factorsText
  split
  · exact ends
  · rw [List.append_assoc]
    exact endsLabel rfl

theorem fieldsEnd (node : PlanNode) (closed : Closed r) : Ends isInt (fieldsText r node) := by
  cases node with
  | leaf => exact factorsEnd (endsLabel rfl)
  | directDft => exact closed.ends rfl
  | stockham => exact factorsEnd (closed.ends rfl)
  | rader => exact factorsEnd (endsLabel rfl)
  | _ => exact endsLabel rfl

theorem splitHeader (closed : Closed r) (closed' : Closed r') (same : nodeText a ++ r = nodeText b ++ r') :
    a.kind = b.kind ∧ a.length = b.length ∧ fieldsText r a = fieldsText r' b := by
  rw [keyText, keyText] at same
  have name := List.append_cancel_left (List.append_cancel_left (List.append_cancel_left same))
  obtain ⟨kinds, length⟩ := splitWord (kindWord a.kind) (kindWord b.kind) (endsLabel rfl) (endsLabel rfl) name
  obtain ⟨lengths, fields⟩ := splitField (fieldsEnd a closed) (fieldsEnd b closed') length
  exact ⟨kindInjective kinds, lengths, fields⟩

theorem splitChild {close : List Char} (child : Unambiguous a) (positive : b.Positive)
    (brace : close.head?.any (fun c => !(c != '}')) = true)
    (same : "\x7b".toList ++ (nodeText a ++ (close ++ r)) = "\x7b".toList ++ (nodeText b ++ (close ++ r'))) : a = b ∧ r = r' := by
  obtain ⟨equal, rest⟩ := child b _ _ positive (endsLabel brace) (endsLabel brace) (List.append_cancel_left same)
  exact ⟨equal, List.append_cancel_left rest⟩

theorem splitOnlyChild (child : Unambiguous a) (positive : b.Positive) (same : onlyChildText r a = onlyChildText r' b) :
    a = b ∧ r = r' := by
  obtain ⟨equal, rest⟩ := splitChild child positive rfl (List.append_cancel_left same)
  exact ⟨equal, List.append_cancel_left rest⟩

theorem splitTwoChildren {a' b' : PlanNode} (first : Unambiguous a) (second : Unambiguous a') (positive : b.Positive)
    (positive' : b'.Positive) (same : twoChildrenText r a a' = twoChildrenText r' b b') : a = b ∧ a' = b' ∧ r = r' := by
  obtain ⟨equal, rest⟩ := splitChild first positive rfl (List.append_cancel_left same)
  obtain ⟨equal', rest⟩ := splitChild second positive' rfl rest
  exact ⟨equal, equal', List.append_cancel_left rest⟩

theorem splitThreeChildren {a' b' a'' b'' : PlanNode} (first : Unambiguous a) (second : Unambiguous a')
    (third : Unambiguous a'') (positive : b.Positive) (positive' : b'.Positive) (positive'' : b''.Positive)
    (same : threeChildrenText r a a' a'' = threeChildrenText r' b b' b'') : a = b ∧ a' = b' ∧ a'' = b'' ∧ r = r' := by
  obtain ⟨equal, rest⟩ := splitChild first positive rfl (List.append_cancel_left same)
  obtain ⟨equal', rest⟩ := splitChild second positive' rfl rest
  obtain ⟨equal'', rest⟩ := splitChild third positive'' rfl rest
  exact ⟨equal, equal', equal'', List.append_cancel_left rest⟩

end Trees

section Kinds
variable {r r' : List Char} {a b : PlanNode}

theorem splitLeaf {factors factors' genericRadices genericRadices' : List ℤ}
    {remainder remainder' lanes lanes' numWarps numWarps' smemSize smemSize' : ℤ} (closed : Closed r) (closed' : Closed r')
    (same : leafText r factors remainder lanes numWarps genericRadices smemSize =
      leafText r' factors' remainder' lanes' numWarps' genericRadices' smemSize') :
    factors = factors' ∧ remainder = remainder' ∧ lanes = lanes' ∧ numWarps = numWarps' ∧
      genericRadices = genericRadices' ∧ smemSize = smemSize' ∧ r = r' := by
  obtain ⟨sameFactors, rest⟩ := splitFactors (labelFree rfl) (labelFree rfl) same
  obtain ⟨sameRemainder, rest⟩ := splitField (endsLabel rfl) (endsLabel rfl) rest
  obtain ⟨sameLanes, rest⟩ := splitField (endsLabel rfl) (endsLabel rfl) rest
  obtain ⟨sameWarps, rest⟩ := splitField (endsLabel rfl) (endsLabel rfl) rest
  obtain ⟨sameRadices, rest⟩ := splitList (endsLabel rfl) (endsLabel rfl) rest
  obtain ⟨sameSize, rest⟩ := splitField (closed.ends rfl) (closed'.ends rfl) rest
  exact ⟨sameFactors, sameRemainder, sameLanes, sameWarps, sameRadices, sameSize, rest⟩

theorem splitBluestein {length length' convLength convLength' : ℤ} (child : Unambiguous a)
    (same : fieldsText r (.bluestein length convLength a) = fieldsText r' (.bluestein length' convLength' b))
    (positive : b.Positive) : convLength = convLength' ∧ a = b ∧ r = r' := by
  unfold fieldsText bluesteinText at same
  obtain ⟨sameConv, rest⟩ := splitField (endsLabel rfl) (endsLabel rfl) same
  exact ⟨sameConv, splitOnlyChild child positive rest⟩

theorem splitRader {prime prime' root root' : ℤ} {idx idx' : List ℤ} (child : Unambiguous a)
    (same : fieldsText r (.rader prime root idx a) = fieldsText r' (.rader prime' root' idx' b)) (positive : b.Positive) :
    root = root' ∧ idx = idx' ∧ a = b ∧ r = r' := by
  unfold fieldsText raderText at same
  obtain ⟨sameIdx, rest⟩ := splitFactors (labelFree rfl) (labelFree rfl) same
  obtain ⟨-, rest⟩ := splitField (endsLabel rfl) (endsLabel rfl) rest
  obtain ⟨sameRoot, rest⟩ := splitField (endsLabel rfl) (endsLabel rfl) rest
  obtain ⟨-, rest⟩ := splitList (endsLabel rfl) (endsLabel rfl) rest
  exact ⟨sameRoot, sameIdx, splitOnlyChild child positive (List.append_cancel_left rest)⟩

theorem splitDims {label label' : List Char} {p p' q q' : ℤ} (stops : Ends isInt (label' ++ (intText q ++ r)))
    (stops' : Ends isInt (label' ++ (intText q' ++ r'))) (ends : Ends isInt r) (ends' : Ends isInt r')
    (same : label ++ (intText p ++ (label' ++ (intText q ++ r))) = label ++ (intText p' ++ (label' ++ (intText q' ++ r')))) :
    p = p' ∧ q = q' ∧ r = r' := by
  obtain ⟨first, rest⟩ := splitField stops stops' same
  exact ⟨first, splitField ends ends' rest⟩

theorem splitThreeDim {n0 n0' n1 n1' n2 n2' : ℤ} {strategy strategy' : ThreeDimStrategy} {a' b' a'' b'' : PlanNode}
    (first : Unambiguous a) (second : Unambiguous a') (third : Unambiguous a'') (positive : b.Positive)
    (positive' : b'.Positive) (positive'' : b''.Positive)
    (same : fieldsText r (.threeDim n0 n1 n2 strategy a a' a'') =
      fieldsText r' (.threeDim n0' n1' n2' strategy' b b' b'')) :
    n0 = n0' ∧ n1 = n1' ∧ a = b ∧ a' = b' ∧ a'' = b'' ∧ r = r' := by
  unfold fieldsText threeDimText at same
  obtain ⟨same0, same1, rest⟩ := splitDims (endsLabel rfl) (endsLabel rfl) (endsLabel rfl) (endsLabel rfl) same
  obtain ⟨-, rest⟩ := splitField (endsLabel rfl) (endsLabel rfl) rest
  exact ⟨same0, same1, splitThreeChildren first second third positive positive' positive'' rest⟩

end Kinds

/- Induction on the first tree, each kind read back by its own lemma; the other tree has the same kind. -/
theorem unambiguous (a : PlanNode) (positive : a.Positive) : Unambiguous a := by
  induction a with
  | leaf length factors remainder lanes numWarps genericRadices smemSize =>
    intro b r r' _ closed closed' same
    obtain ⟨kinds, lengths, fields⟩ := splitHeader closed closed' same
    cases b <;> cases kinds
    obtain ⟨rfl, rfl, rfl, rfl, rfl, rfl, rest⟩ := splitLeaf closed closed' fields
    cases lengths
    exact ⟨rfl, rest⟩
  | directDft length =>
    intro b r r' _ closed closed' same
    obtain ⟨kinds, lengths, rest⟩ := splitHeader closed closed' same
    cases b <;> cases kinds
    cases lengths
    exact ⟨rfl, rest⟩
  | stockham length factors =>
    intro b r r' _ closed closed' same
    obtain ⟨kinds, lengths, fields⟩ := splitHeader closed closed' same
    cases b <;> cases kinds
    obtain ⟨rfl, rest⟩ := splitFactors closed.noFactors closed'.noFactors fields
    cases lengths
    exact ⟨rfl, rest⟩
  | fourStep length n1 n2 rowPlan colPlan row col =>
    intro b r r' others closed closed' same
    obtain ⟨kinds, lengths, fields⟩ := splitHeader closed closed' same
    cases b <;> cases kinds
    obtain ⟨rfl, rfl, rest⟩ := splitDims (endsLabel rfl) (endsLabel rfl) (endsLabel rfl) (endsLabel rfl) fields
    obtain ⟨rfl, rfl, ending⟩ := splitTwoChildren (row positive.1) (col positive.2) others.1 others.2 rest
    cases lengths
    exact ⟨rfl, ending⟩
  | bluestein length convLength fftPlan fft =>
    intro b r r' others closed closed' same
    obtain ⟨kinds, lengths, fields⟩ := splitHeader closed closed' same
    cases b <;> cases kinds
    obtain ⟨rfl, rfl, rest⟩ := splitBluestein (fft positive) fields others
    cases lengths
    exact ⟨rfl, rest⟩
  | rader prime root idx convPlan conv =>
    intro b r r' others closed closed' same
    obtain ⟨kinds, lengths, fields⟩ := splitHeader closed closed' same
    cases b <;> cases kinds
    obtain ⟨rfl, rfl, rfl, rest⟩ := splitRader (conv positive) fields others
    cases lengths
    exact ⟨rfl, rest⟩
  | twoDim n0 n1 strategy rowPlan colPlan row col =>
    obtain ⟨_, _, rowPositive, colPositive⟩ := positive
    intro b r r' others closed closed' same
    obtain ⟨kinds, _, fields⟩ := splitHeader closed closed' same
    cases b <;> cases kinds
    obtain ⟨_, _, rowOther, colOther⟩ := others
    obtain ⟨rfl, rfl, rest⟩ := splitDims (endsLabel rfl) (endsLabel rfl) (endsLabel rfl) (endsLabel rfl) fields
    obtain ⟨rfl, rfl, ending⟩ := splitTwoChildren (row rowPositive) (col colPositive) rowOther colOther rest
    exact ⟨rfl, ending⟩
  | threeDim n0 n1 n2 strategy n2Plan n1Plan n0Plan third second first =>
    obtain ⟨pos0, pos1, _, positive2, positive1, positive0⟩ := positive
    intro b r r' others closed closed' same
    obtain ⟨kinds, lengths, fields⟩ := splitHeader closed closed' same
    cases b <;> cases kinds
    obtain ⟨_, _, _, other2, other1, other0⟩ := others
    obtain ⟨rfl, rfl, rfl, rfl, rfl, rest⟩ :=
      splitThreeDim (third positive2) (second positive1) (first positive0) other2 other1 other0 fields
    -- the third dimension is not in the text but in the length
    have dims : n0 * n1 ≠ 0 := Int.ne_of_gt (Int.mul_pos pos0 pos1)
    cases Int.eq_of_mul_eq_mul_left dims lengths
    exact ⟨rfl, rest⟩

theorem keyInjective {a b : PlanNode} (positive : a.Positive) (positive' : b.Positive)
    (same : (PlanKey.fromNode a).repr = (PlanKey.fromNode b).repr) : a = b := by
  have closed : Closed [] := fun c first => nomatch first
  have texts : nodeText a ++ [] = nodeText b ++ [] := by
    unfold nodeText
    rw [same]
  exact (unambiguous a positive b [] [] positive' closed closed texts).1

end FlagFft.Plan
