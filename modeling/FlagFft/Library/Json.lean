import Mathlib.Data.List.Basic
import Mathlib.Data.Int.Init

/-! JSON values and the typed access to them. A child that is looked up is smaller than the value it is in, so that
readers of nested values can recurse. -/
namespace FlagFft.Library.Json

inductive Value where
  | null
  | boolean (value : Bool)
  | number (value : ℤ)
  | text (value : String)
  | array (items : List Value)
  | object (fields : List (String × Value))

inductive Error where
  | wrongType
  | missing (key : String)
  | thrown (what : String)
  deriving DecidableEq, Repr

def Value.field? : Value → String → Option Value
  | .object fields, key => fields.lookup key
  | _, _ => none

theorem lookupSize {fields : List (String × Value)} {key : String} {child : Value} (found : fields.lookup key = some child) :
    sizeOf child < sizeOf fields := by
  induction fields with
  | nil => cases found
  | cons field rest ih =>
    obtain ⟨name, value⟩ := field
    rw [List.lookup_cons] at found
    split at found
    · cases found
      simp only [List.cons.sizeOf_spec, Prod.mk.sizeOf_spec]
      omega
    · have smaller := ih found
      simp only [List.cons.sizeOf_spec]
      omega

theorem fieldSize {value child : Value} {key : String} (found : value.field? key = some child) :
    sizeOf child < sizeOf value := by
  cases value with
  | object fields =>
    have smaller := lookupSize found
    simp only [Value.object.sizeOf_spec]
    omega
  | null | boolean | number | text | array => cases found

/- node.at(key) -/
def Value.child (value : Value) (key : String) : Except Error { child : Value // sizeOf child < sizeOf value } :=
  match found : value.field? key with
  | some child => .ok ⟨child, fieldSize found⟩
  | none => match value with
    | .object _ => .error (.missing key)
    | _ => .error .wrongType

theorem childFound {value child : Value} {key : String} (found : value.field? key = some child) :
    value.child key = .ok ⟨child, fieldSize found⟩ := by
  unfold Value.child
  split
  case h_1 other found' =>
    obtain rfl : child = other := Option.some.inj (found.symm.trans found')
    rfl
  case h_2 none_ =>
    rw [found] at none_
    cases none_

def Value.asInt : Value → Except Error ℤ
  | .number value => .ok value
  | _ => .error .wrongType

def Value.asText : Value → Except Error String
  | .text value => .ok value
  | _ => .error .wrongType

def Value.asInts : Value → Except Error (List ℤ)
  | .array items => items.mapM Value.asInt
  | _ => .error .wrongType

def ints (values : List ℤ) : Value := .array (values.map .number)

theorem intsRead (values : List ℤ) : (ints values).asInts = .ok values := by
  unfold ints Value.asInts
  induction values with
  | nil => rfl
  | cons value rest ih =>
    simp only [List.map_cons, List.mapM_cons, Value.asInt, ih, bind, Except.bind, pure, Except.pure]

/- node.at(key).get<T>() -/
def Value.intAt (value : Value) (key : String) : Except Error ℤ := value.child key >>= fun child => child.1.asInt

def Value.textAt (value : Value) (key : String) : Except Error String := value.child key >>= fun child => child.1.asText

def Value.intsAt (value : Value) (key : String) : Except Error (List ℤ) := value.child key >>= fun child => child.1.asInts

section Reading
variable {value : Value} {key : String}

theorem intFound {n : ℤ} (found : value.field? key = some (.number n)) : value.intAt key = .ok n := by
  rw [Value.intAt, childFound found]
  rfl

theorem textFound {s : String} (found : value.field? key = some (.text s)) : value.textAt key = .ok s := by
  rw [Value.textAt, childFound found]
  rfl

theorem intsFound {values : List ℤ} (found : value.field? key = some (ints values)) : value.intsAt key = .ok values := by
  rw [Value.intsAt, childFound found]
  exact intsRead values

end Reading

end FlagFft.Library.Json
