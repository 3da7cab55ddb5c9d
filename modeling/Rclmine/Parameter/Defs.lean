import Mathlib

/-!
# The parameter storage

The model of `MyParameter` (`my_parameter.h`): a map from parameter names to `ParameterValue`
messages, with declaration, lookup, type-checked update and typed getters.

The constants of `rcl_interfaces/msg/ParameterType` are generated outside the repository. They are
the parameter `T : ParameterType`; `ParameterType.Prescribed` states the numbering the message
package documents, and only results that depend on it assume it.

A `std::string` is a `String`, a `float64` is kept as its bit pattern (the storage only copies it),
and a thrown `std::runtime_error` is an `Except.error` carrying its text. Console output is left
out.
-/

namespace Rclmine

/-- The constants of `rcl_interfaces/msg/ParameterType`. -/
structure ParameterType where
  parameterNotSet : UInt8
  parameterBool : UInt8
  parameterInteger : UInt8
  parameterDouble : UInt8
  parameterString : UInt8
  parameterByteArray : UInt8
  parameterBoolArray : UInt8
  parameterIntegerArray : UInt8
  parameterDoubleArray : UInt8
  parameterStringArray : UInt8

/-- The numbering of the constants that `rcl_interfaces` prescribes. -/
structure ParameterType.Prescribed (T : ParameterType) : Prop where
  notSet : T.parameterNotSet = 0
  bool : T.parameterBool = 1
  integer : T.parameterInteger = 2
  double : T.parameterDouble = 3
  string : T.parameterString = 4
  byteArray : T.parameterByteArray = 5
  boolArray : T.parameterBoolArray = 6
  integerArray : T.parameterIntegerArray = 7
  doubleArray : T.parameterDoubleArray = 8
  stringArray : T.parameterStringArray = 9

/-- The constants with their prescribed values. -/
def ParameterType.rclInterfaces : ParameterType :=
  ⟨0, 1, 2, 3, 4, 5, 6, 7, 8, 9⟩

theorem ParameterType.prescribed_rclInterfaces : rclInterfaces.Prescribed := by
  constructor <;> rfl

/-- The message `rcl_interfaces/msg/ParameterValue`. -/
structure ParameterValue where
  type : UInt8 := 0
  boolValue : Bool := false
  integerValue : Int64 := 0
  /-- The bits of the `float64`. -/
  doubleValue : UInt64 := 0
  stringValue : String := ""
  byteArrayValue : List UInt8 := []
  boolArrayValue : List Bool := []
  integerArrayValue : List Int64 := []
  doubleArrayValue : List UInt64 := []
  stringArrayValue : List String := []
  deriving DecidableEq

/-- The storage: `std::map<std::string, ParameterValue> parameters_`. -/
structure MyParameter where
  parameters : Std.ExtTreeMap String ParameterValue := ∅

namespace MyParameter

/-- `MyParameter::get_parameter_type`. -/
def getParameterType (T : ParameterType) (value : ParameterValue) : UInt8 :=
  if value.type = 0 then T.parameterBool
  else if value.type = 1 then T.parameterInteger
  else if value.type = 2 then T.parameterDouble
  else if value.type = 3 then T.parameterString
  else if value.type = 4 then T.parameterByteArray
  else if value.type = 5 then T.parameterBoolArray
  else if value.type = 6 then T.parameterIntegerArray
  else if value.type = 7 then T.parameterDoubleArray
  else if value.type = 8 then T.parameterStringArray
  -- every other tag
  else T.parameterNotSet

/-- `parameters_.find(name)`. -/
def find (p : MyParameter) (name : String) : Option ParameterValue :=
  p.parameters[name]?

/-- `parameters_[name] = value`. -/
def assign (p : MyParameter) (name : String) (value : ParameterValue) : MyParameter :=
  { p with parameters := p.parameters.insert name value }

/-- `MyParameter::declare_parameter`. -/
def declareParameter (p : MyParameter) (name : String) (defaultValue : ParameterValue) :
    Bool × MyParameter :=
  match p.find name with
  -- already declared: the stored value stays
  | some _ => (false, p)
  | none => (true, p.assign name defaultValue)

/-- `MyParameter::get_parameter`. -/
def getParameter (p : MyParameter) (name : String) : Except String ParameterValue :=
  match p.find name with
  | none => .error ("Parameter not declared: " ++ name)
  | some value => .ok value

/-- `MyParameter::has_parameter`. -/
def hasParameter (p : MyParameter) (name : String) : Bool :=
  (p.find name).isSome

/-- `MyParameter::set_parameter`. -/
def setParameter (T : ParameterType) (p : MyParameter) (name : String) (value : ParameterValue) :
    Bool × MyParameter :=
  match p.find name with
  | none => (false, p)
  | some current =>
      -- the classes are compared, not the `type` fields
      let currentType := getParameterType T current
      let newType := getParameterType T value
      if currentType ≠ newType then (false, p) else (true, p.assign name value)

/-- `MyParameter::get_parameter_names`: the keys in the order the map iterates. -/
def getParameterNames (p : MyParameter) : List String :=
  p.parameters.toList.map fun param => param.1

/-- The four typed getters: they differ in the class they ask for, its name in the error text and
the payload field they return. -/
def getParameterAs {α : Type} (T : ParameterType) (p : MyParameter) (name : String)
    (wanted : UInt8) (what : String) (payload : ParameterValue → α) : Except String α := do
  let value ← p.getParameter name
  if getParameterType T value ≠ wanted then
    throw ("Parameter is not of type " ++ what ++ ": " ++ name)
  return payload value

/-- `MyParameter::get_parameter_bool`. -/
def getParameterBool (T : ParameterType) (p : MyParameter) (name : String) : Except String Bool :=
  p.getParameterAs T name T.parameterBool "bool" ParameterValue.boolValue

/-- `MyParameter::get_parameter_int`. -/
def getParameterInt (T : ParameterType) (p : MyParameter) (name : String) : Except String Int64 :=
  p.getParameterAs T name T.parameterInteger "integer" ParameterValue.integerValue

/-- `MyParameter::get_parameter_double`. -/
def getParameterDouble (T : ParameterType) (p : MyParameter) (name : String) :
    Except String UInt64 :=
  p.getParameterAs T name T.parameterDouble "double" ParameterValue.doubleValue

/-- `MyParameter::get_parameter_string`. -/
def getParameterString (T : ParameterType) (p : MyParameter) (name : String) :
    Except String String :=
  p.getParameterAs T name T.parameterString "string" ParameterValue.stringValue

/-! ### Lookup -/

variable {T : ParameterType} {p : MyParameter}

/-- Two storages with the same lookups are equal. -/
theorem ext_find {p q : MyParameter} (h : ∀ n, p.find n = q.find n) : p = q := by
  obtain ⟨p⟩ := p
  obtain ⟨q⟩ := q
  exact congrArg MyParameter.mk (Std.ExtTreeMap.ext_getElem? h)

@[simp] theorem find_empty (n : String) : ({} : MyParameter).find n = none := by
  simp [find]

theorem find_assign (p : MyParameter) (m n : String) (v : ParameterValue) :
    (p.assign m v).find n = if m = n then some v else p.find n := by
  simp [find, assign, Std.ExtTreeMap.getElem?_insert]

@[simp] theorem find_assign_self (p : MyParameter) (n : String) (v : ParameterValue) :
    (p.assign n v).find n = some v := by
  simp [find_assign]

theorem find_assign_of_ne (p : MyParameter) {m n : String} (v : ParameterValue) (h : m ≠ n) :
    (p.assign m v).find n = p.find n := by
  simp [find_assign, h]

/-- `hasParameter` holds exactly of the names the storage has a value for. -/
theorem hasParameter_eq_true_iff {n : String} :
    p.hasParameter n = true ↔ ∃ v, p.find n = some v :=
  Option.isSome_iff_exists

/-- `getParameter` returns the stored value. -/
theorem getParameter_of_find {n : String} {v : ParameterValue} (h : p.find n = some v) :
    p.getParameter n = .ok v := by
  simp [getParameter, h]

/-- `getParameter` throws on a name without a value, and the text names it. -/
theorem getParameter_of_find_none {n : String} (h : p.find n = none) :
    p.getParameter n = .error ("Parameter not declared: " ++ n) := by
  simp [getParameter, h]

theorem getParameter_eq_ok_iff {n : String} {v : ParameterValue} :
    p.getParameter n = .ok v ↔ p.find n = some v := by
  cases h : p.find n <;> simp [getParameter, h]

/-! ### What one call does to the storage -/

/-- A declaration of a name without a value succeeds and stores the default. -/
theorem declareParameter_of_find_none {n : String} (h : p.find n = none) (v : ParameterValue) :
    p.declareParameter n v = (true, p.assign n v) := by
  simp [declareParameter, h]

/-- A declaration of a declared name fails and changes nothing. -/
theorem declareParameter_of_find_some {n : String} {w : ParameterValue} (h : p.find n = some w)
    (v : ParameterValue) : p.declareParameter n v = (false, p) := by
  simp [declareParameter, h]

/-- An update of an undeclared name fails and changes nothing. -/
theorem setParameter_of_find_none {n : String} (h : p.find n = none) (v : ParameterValue) :
    p.setParameter T n v = (false, p) := by
  simp [setParameter, h]

/-- An update of a declared name is accepted exactly if the two values have one class; a rejected
one changes nothing. -/
theorem setParameter_of_find_some {n : String} {w : ParameterValue} (h : p.find n = some w)
    (v : ParameterValue) :
    p.setParameter T n v =
      if getParameterType T w = getParameterType T v then (true, p.assign n v) else (false, p) := by
  simp [setParameter, h]

/-- A declaration either stores the value under a new name or fails on an old one. -/
theorem declareParameter_cases (p : MyParameter) (n : String) (v : ParameterValue) :
    (p.find n = none ∧ p.declareParameter n v = (true, p.assign n v)) ∨
      ((∃ w, p.find n = some w) ∧ p.declareParameter n v = (false, p)) := by
  cases h : p.find n with
  | none => exact Or.inl ⟨rfl, declareParameter_of_find_none h v⟩
  | some w => exact Or.inr ⟨⟨w, rfl⟩, declareParameter_of_find_some h v⟩

/-- An update either replaces a stored value of its own class or is rejected without a trace. -/
theorem setParameter_cases (T : ParameterType) (p : MyParameter) (n : String)
    (v : ParameterValue) :
    (∃ w, p.find n = some w ∧ getParameterType T w = getParameterType T v ∧
        p.setParameter T n v = (true, p.assign n v)) ∨
      ((∀ w, p.find n = some w → getParameterType T w ≠ getParameterType T v) ∧
        p.setParameter T n v = (false, p)) := by
  cases h : p.find n with
  | none => exact Or.inr ⟨by simp, setParameter_of_find_none h v⟩
  | some w =>
      by_cases hclass : getParameterType T w = getParameterType T v
      · exact Or.inl ⟨w, rfl, hclass, by simp [setParameter_of_find_some h, hclass]⟩
      · refine Or.inr ⟨?_, by simp [setParameter_of_find_some h, hclass]⟩
        rintro _ ⟨⟩
        exact hclass

/-! ### The names -/

theorem getParameterNames_eq_keys (p : MyParameter) : p.getParameterNames = p.parameters.keys :=
  Std.ExtTreeMap.map_fst_toList_eq_keys

/-- The listed names are the declared ones. -/
theorem mem_getParameterNames {n : String} :
    n ∈ p.getParameterNames ↔ ∃ v, p.find n = some v := by
  rw [getParameterNames_eq_keys, Std.ExtTreeMap.mem_keys, ← Option.isSome_iff_exists, find,
    Std.ExtTreeMap.isSome_getElem?_iff_mem]

/-- The names come in strictly increasing order. -/
theorem sortedLT_getParameterNames (p : MyParameter) :
    p.getParameterNames.Pairwise (· < ·) := by
  rw [getParameterNames_eq_keys]
  exact p.parameters.ordered_keys.imp compare_lt_iff_lt.mp

end MyParameter

end Rclmine
