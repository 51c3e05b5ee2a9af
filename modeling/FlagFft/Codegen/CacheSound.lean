import FlagFft.Codegen.Generation

/-! When the cache returns what generation would: the cache key determines the command line, and of the environment
only what it records. -/
namespace FlagFft.Codegen
open Library.Text Library.Memo

section Texts
variable {r r' : List Char}

/- The texts the driver describes a device with: JSON objects, none of which is the beginning of another. -/
structure ProfileTexts (Profile : String → Prop) : Prop where
  opens : ∀ profile, Profile profile → profile.toList.head? = some '{'
  delimited : ∀ profile profile', Profile profile → Profile profile' → ∀ r r',
    profile.toList ++ r = profile'.toList ++ r' → profile = profile'

theorem policiesPlain (policies : Policies) : ∀ field ∈ policies.fields, Plain field.2 := by
  simp only [Policies.fields, List.forall_mem_cons, List.not_mem_nil, false_imp_iff, implies_true, plainInt, plainBit,
    and_self]

theorem policiesSeparated (policies : Policies) : Separated policies.fields := by
  simp only [Separated, Policies.fields, List.map_cons, List.map_nil]
  rfl

theorem keySeparated (key : KernelKey) : Separated key.fields.tail := by
  simp only [Separated, KernelKey.fields, List.tail_cons, List.map_cons, List.map_nil]
  rfl

theorem separatedIf {present : Prop} [Decidable present] {fields : List (String × String)} (separated : Separated fields) :
    Separated (if present then fields else []) := by
  split
  · exact separated
  · rfl

theorem npuLeafSeparated (portable : Bool) (environment : Environment) : Separated (npuLeafFields portable environment) := by
  cases portable <;> simp only [Separated, npuLeafFields, if_true, Bool.false_eq_true, if_false, List.map_cons, List.map_nil] <;>
    rfl

theorem overrideSeparated (backend : Backend) (call : Call) : Separated (call.overrideFields backend) := by
  have stores : Separated (ixStoreFields call.environment) := by
    simp only [Separated, ixStoreFields, List.map_cons, List.map_nil]
    rfl
  have npuStores : Separated (npuStoreFields call.environment) := by
    simp only [Separated, npuStoreFields, List.map_cons, List.map_nil]
    rfl
  have packed : Separated (ixPackedFields call.environment) := by
    simp only [Separated, ixPackedFields, List.map_cons, List.map_nil]
    rfl
  have transposes : Separated (ixTransposeFields call.environment) := by
    simp only [Separated, ixTransposeFields, List.map_cons, List.map_nil]
    rfl
  unfold Call.overrideFields
  exact separatedAppend (separatedAppend (separatedAppend (separatedAppend (separatedIf stores) (separatedIf npuStores))
    (separatedIf (npuLeafSeparated _ _))) (separatedIf packed)) (separatedIf transposes)

theorem plainMode (root : String) (kind : KernelKind) (dtype : String) (length n1 n2 : ℤ) :
    Plain (macaTailKernelMode root kind dtype length n1 n2) := by
  unfold macaTailKernelMode
  simp only
  repeat' split
  all_goals decide

end Texts

section Recorded
variable {r r' : List Char}

theorem recordedSome (text : String) :
    (recordedValue (some text)).toList ++ r = text.toList.length.repr.toList ++ (':' :: (text.toList ++ r)) := by
  simp only [recordedValue, String.toList_append, List.append_assoc]
  rfl

theorem digitsNotUnset {n : ℕ} {rest rest' : List Char} : n.repr.toList ++ (':' :: rest) ≠ 'u' :: rest' := by
  intro same
  cases digits : n.repr.toList with
  | nil =>
    rw [digits] at same
    cases same
  | cons c chars =>
    rw [digits] at same
    have digit := natChars n c (by rw [digits]; exact List.mem_cons_self)
    cases (List.cons.inj same).1
    cases digit

/- A value with its length in front, or the word for none. -/
theorem splitRecorded {value value' : Option String}
    (same : (recordedValue value).toList ++ r = (recordedValue value').toList ++ r') : value = value' ∧ r = r' := by
  cases value with
  | none =>
    cases value' with
    | none => exact ⟨rfl, List.append_cancel_left same⟩
    | some text' =>
      rw [recordedSome] at same
      exact absurd same.symm digitsNotUnset
  | some text =>
    cases value' with
    | none =>
      rw [recordedSome] at same
      exact absurd same digitsNotUnset
    | some text' =>
      rw [recordedSome, recordedSome] at same
      obtain ⟨lengths, rest⟩ := splitWord (natChars _) (natChars _) (endsCons rfl) (endsCons rfl) same
      obtain ⟨texts, last⟩ := List.append_inj (List.cons.inj rest).2 (natInjective lengths)
      cases String.toList_injective texts
      exact ⟨rfl, last⟩

theorem splitRecordedText {environment environment' : Environment} {names : List String}
    (same : (recordedText environment names).toList ++ r = (recordedText environment' names).toList ++ r') :
    ∀ name ∈ names, environment name = environment' name := by
  induction names with
  | nil =>
    intro name inside
    cases inside
  | cons name rest ih =>
    simp only [recordedText, String.toList_append, List.append_assoc] at same
    obtain ⟨value, later⟩ := splitRecorded (List.append_cancel_left (List.append_cancel_left (List.append_cancel_left same)))
    exact List.forall_mem_cons.mpr ⟨value, ih later⟩

end Recorded

section Decided
variable {backend : Backend} {Profile : String → Prop} {call call' : Call}

/- A call whose texts hold no separator, on a device described by a profile. -/
structure PlainCall (backend : Backend) (Profile : String → Prop) (call : Call) : Prop where
  key : PlainKey call.key
  policy : Plain (call.policy backend)
  profile : Profile call.deviceProfile

def tailText (backend : Backend) (call : Call) : List Char :=
  (if backend = .maca then macaTailCodegenIdentity call.environment call.tailMode else "").toList ++
    (renderFields (call.overrideFields backend)).toList

theorem recordedEnds (environment : Environment) (names : List String) {rest : List Char} (ends : Ends isPlain rest) :
    Ends isPlain ((recordedText environment names).toList ++ rest) := by
  cases names with
  | nil => exact ends
  | cons name later =>
    simp only [recordedText, String.toList_append, List.append_assoc]
    exact labelEnds rfl

theorem overridesEnd (backend : Backend) (call : Call) : Ends isPlain (renderFields (call.overrideFields backend)).toList := by
  have nothing : Ends isPlain [] := endsNil
  have ends := separatedEnds (overrideSeparated backend call) nothing
  rwa [List.append_nil] at ends

theorem tailEnds (backend : Backend) (call : Call) : Ends isPlain (tailText backend call) := by
  unfold tailText
  split
  · unfold macaTailCodegenIdentity
    simp only [String.toList_append, List.append_assoc]
    exact labelEnds rfl
  · exact overridesEnd backend call

theorem cacheKeyText (backend : Backend) (call : Call) : (cacheKey backend call).toList =
    (renderFields call.key.fields).toList ++ (";hcu_3d_middle_batch_pack=".toList ++
      ((toString call.key.hcu3dMiddleBatchPack).toList ++ (call.deviceProfile.toList ++ ((call.policy backend).toList ++
      ((renderFields call.policies.fields).toList ++ tailText backend call))))) := by
  unfold cacheKey KernelKey.repr tailText
  simp only [String.toList_append, List.append_assoc]

/- What two calls of one cache key share. -/
structure SameKeyed (backend : Backend) (call call' : Call) : Prop where
  key : call.key = call'.key
  profile : call.deviceProfile = call'.deviceProfile
  policy : call.policy backend = call'.policy backend
  policies : call.policies.fields = call'.policies.fields
  tail : tailText backend call = tailText backend call'

theorem profileEnds (texts : ProfileTexts Profile) {profile : String} (described : Profile profile) {rest : List Char} :
    Ends isInt (profile.toList ++ rest) := by
  have opens := texts.opens profile described
  cases text : profile.toList with
  | nil =>
    rw [text] at opens
    cases opens
  | cons c chars =>
    rw [text] at opens
    cases opens
    exact endsCons rfl

theorem cacheKeyDecides (texts : ProfileTexts Profile) (plain : PlainCall backend Profile call)
    (plain' : PlainCall backend Profile call') (same : cacheKey backend call = cacheKey backend call') :
    SameKeyed backend call call' := by
  have text := congrArg String.toList same
  rw [cacheKeyText, cacheKeyText] at text
  have labels : call.key.fields.map Prod.fst = call'.key.fields.map Prod.fst := rfl
  have labels' : call.policies.fields.map Prod.fst = call'.policies.fields.map Prod.fst := rfl
  obtain ⟨fields, text⟩ := splitFields labels (keySeparated _) (plainFields plain.key) (plainFields plain'.key)
    (labelEnds rfl) (labelEnds rfl) text
  obtain ⟨pack, text⟩ := splitInt (profileEnds texts plain.profile) (profileEnds texts plain'.profile)
    (List.append_cancel_left text)
  have profile := texts.delimited _ _ plain.profile plain'.profile _ _ text
  rw [profile] at text
  obtain ⟨policy, text⟩ := splitWord plain.policy plain'.policy (separatedEnds (policiesSeparated _) (tailEnds _ _))
    (separatedEnds (policiesSeparated _) (tailEnds _ _)) (List.append_cancel_left text)
  have separated : Separated call.policies.fields.tail := (separatedCons.mp (policiesSeparated call.policies)).2
  obtain ⟨policies, tail⟩ := splitFields labels' separated (policiesPlain _) (policiesPlain _) (tailEnds _ _) (tailEnds _ _) text
  exact ⟨keyFieldsInjective fields pack, profile, String.toList_injective policy, policies, tail⟩

/- On the one backend that has them, the tail mode and the recorded overrides are in the key as well. -/
theorem tailDecides (maca : backend = .maca) (same : tailText backend call = tailText backend call') :
    call.tailMode = call'.tailMode ∧ ∀ name ∈ macaRecorded, call.environment name = call'.environment name := by
  unfold tailText macaTailCodegenIdentity at same
  simp only [if_pos maca, String.toList_append, List.append_assoc] at same
  obtain ⟨mode, recorded⟩ := splitWord (plainMode _ _ _ _ _ _) (plainMode _ _ _ _ _ _)
    (recordedEnds _ _ (overridesEnd _ _)) (recordedEnds _ _ (overridesEnd _ _)) (List.append_cancel_left same)
  exact ⟨String.toList_injective mode, splitRecordedText recorded⟩

theorem policyOptionsDecided {policies policies' : Policies} (same : policies.fields = policies'.fields) (mode : String) :
    policyOptions policies = policyOptions policies' ∧ macaOptions policies mode = macaOptions policies' mode := by
  simp only [Policies.fields, List.cons.injEq, Prod.mk.injEq, true_and, and_true] at same
  obtain ⟨single, batch, plane, volume, cube, ctSingle, tle, ctBatch, pack⟩ := same
  unfold policyOptions macaOptions
  rw [bitInjective single, bitInjective batch, bitInjective plane, bitInjective volume, bitInjective cube,
    bitInjective ctSingle, textInjective tle, bitInjective ctBatch, bitInjective pack]
  exact ⟨rfl, rfl⟩

theorem commandDecided (same : SameKeyed backend call call') : call.command backend = call'.command backend := by
  have name : call.kernelName = call'.kernelName := by
    unfold Call.kernelName
    rw [same.key]
  have options := (policyOptionsDecided same.policies "").1
  have maca : (if backend = .maca then macaOptions call.policies call.tailMode else []) =
      if backend = .maca then macaOptions call'.policies call'.tailMode else [] := by
    split
    case isTrue maca =>
      rw [(tailDecides maca same.tail).1]
      exact (policyOptionsDecided same.policies _).2
    case isFalse => rfl
  unfold Call.command
  rw [name, options, maca, same.key, same.profile, same.policy]

end Decided

section Claim
variable {backend : Backend} {K : Type} {Profile : String → Prop}

/- The inputs of generation: the command line, and the variables read for it. -/
structure SameInputs (generator : Generator backend K) (call call' : Call) : Prop where
  command : call.command backend = call'.command backend
  environment : ∀ name, generator.reads (call.command backend) name →
    call.generatorEnvironment name = call'.generatorEnvironment name

/- What of the environment the cache key records whole. -/
def recorded (backend : Backend) (name : String) : Prop := backend = .maca ∧ name ∈ macaRecorded

/- The variables read but not recorded have not changed. -/
def UnrecordedAgree (generator : Generator backend K) (call call' : Call) : Prop :=
  ∀ name, generator.reads (call.command backend) name → ¬ recorded backend name →
    call.generatorEnvironment name = call'.generatorEnvironment name

theorem recordedAgree {call call' : Call} (same : SameKeyed backend call call') {name : String} (kept : recorded backend name) :
    call.generatorEnvironment name = call'.generatorEnvironment name := by
  have environment := (tailDecides kept.1 same.tail).2 name kept.2
  unfold Call.generatorEnvironment
  rw [same.key, environment]

theorem sameInputsIff (generator : Generator backend K) (texts : ProfileTexts Profile) {call call' : Call}
    (plain : PlainCall backend Profile call) (plain' : PlainCall backend Profile call')
    (same : cacheKey backend call = cacheKey backend call') :
    SameInputs generator call call' ↔ UnrecordedAgree generator call call' := by
  have keyed := cacheKeyDecides texts plain plain' same
  constructor
  · intro inputs name read _
    exact inputs.environment name read
  · intro agree
    refine ⟨commandDecided keyed, fun name read => ?_⟩
    by_cases kept : recorded backend name
    · exact recordedAgree keyed kept
    · exact agree name read kept

theorem sameInputsGenerate (generator : Generator backend K) {call call' : Call} (inputs : SameInputs generator call call') :
    generateFor generator call = generateFor generator call' := by
  unfold generateFor
  rw [← inputs.command]
  exact generator.onlyReads _ _ _ inputs.environment

end Claim

section Examples

/- The entry point alone, as a generator. -/
def musaEntry : Generator .musa String where
  reads _ name := mainReads .musa name = true
  generate _ environment := musaProfileDir environment
  entry _ _ read := read
  onlyReads _ environment environment' agree := by
    have pairStore := agree "FLAGFFT_MUSA_3D_PAIR_STORE" rfl
    have pack := agree "FLAGFFT_MUSA_3D_PACK" rfl
    unfold musaProfileDir
    rw [pairStore, pack]

/- The environment of one variable. -/
def only (name value : String) : Environment := fun other => if other = name then some value else none

def musaProfile : String := "\x7b\"backend\":\"musa\"\x7d"

def storeKey : KernelKey :=
  { kind := .leafPermutedStore, target := "musa:31:32", length := 64, factors := [8, 8], lanes := 8, numWarps := 1
    smemSize := 64 }

def storeCall (environment : Environment) : Call :=
  { key := storeKey, policies := {}, environment, deviceProfile := musaProfile }

def pairCall (value : String) : Call := storeCall (only "FLAGFFT_MUSA_3D_PAIR_STORE" value)

theorem storePolicy {environment : Environment} (unset : environment "FLAGFFT_EXECUTION_POLICY" = none) :
    (storeCall environment).policy .musa = "legacy" := by
  have none_ : (storeCall environment).environment "FLAGFFT_EXECUTION_POLICY" = none := unset
  unfold Call.policy
  rw [none_]
  rfl

theorem storeCallPlain {environment : Environment} (unset : environment "FLAGFFT_EXECUTION_POLICY" = none) :
    PlainCall .musa (· = musaProfile) (storeCall environment) := by
  have key : PlainKey storeKey := ⟨by decide, by decide, by decide, by decide, by decide⟩
  have policy : Plain "legacy" := by decide
  rw [← storePolicy unset] at policy
  exact ⟨key, policy, rfl⟩

theorem musaProfileTexts : ProfileTexts (· = musaProfile) := by
  refine ⟨?_, ?_⟩
  · rintro _ rfl
    decide
  · rintro _ _ rfl rfl _ _ _
    rfl

theorem storeCallKey {environment : Environment} (unset : environment "FLAGFFT_EXECUTION_POLICY" = none) :
    cacheKey .musa (storeCall environment) = cacheKey .musa (storeCall fun _ => none) := by
  have nothing : (storeCall fun _ => none).policy .musa = "legacy" := rfl
  unfold cacheKey
  rw [storePolicy unset, nothing]
  rfl

end Examples

end FlagFft.Codegen
