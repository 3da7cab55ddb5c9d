import Rclmine.Parameter.History

/-!
# Parameter classes and the typed getters

`get_parameter_type` maps the `type` field of a value to a constant of `ParameterType`. With the
prescribed numbering it is the shift `t ↦ t + 1` on the tags below 9 and `PARAMETER_NOT_SET` on all
others (`getParameterType_eq`), while the message package numbers the types by the `type` field
itself.

The module introduces `RoundTrips`, the behaviour of the four typed getters that the numbering of
`rcl_interfaces` prescribes, and shows that the storage has it exactly for the tags from 5 on
(`getters_roundTrip_iff`).
-/

namespace Rclmine

open MyParameter History

variable {T : ParameterType}

namespace MyParameter

/-- The classification is the tag shifted by one, and `PARAMETER_NOT_SET` from tag 9 on. -/
theorem getParameterType_eq (hT : T.Prescribed) (v : ParameterValue) :
    getParameterType T v = if v.type < 9 then v.type + 1 else 0 := by
  have shifted : ∀ t : UInt8,
      (if t = 0 then 1 else if t = 1 then 2 else if t = 2 then 3 else if t = 3 then 4
        else if t = 4 then 5 else if t = 5 then 6 else if t = 6 then 7 else if t = 7 then 8
        else if t = 8 then 9 else 0 : UInt8) = if t < 9 then t + 1 else 0 := by
    decide +kernel
  -- with the constants replaced by their numbers the cascade is this function of the tag
  simp only [getParameterType, hT.notSet, hT.bool, hT.integer, hT.double, hT.string,
    hT.byteArray, hT.boolArray, hT.integerArray, hT.doubleArray, hT.stringArray]
  exact shifted v.type

/-- Two values of one class other than `PARAMETER_NOT_SET` carry the same tag. -/
theorem type_eq_of_getParameterType_eq (hT : T.Prescribed) {v w : ParameterValue}
    (hclass : getParameterType T v = getParameterType T w)
    (hset : getParameterType T w ≠ T.parameterNotSet) : v.type = w.type := by
  rw [hT.notSet] at hset
  rw [hclass.symm] at hset
  rw [getParameterType_eq hT, getParameterType_eq hT] at hclass
  rw [getParameterType_eq hT] at hset
  by_cases hv : v.type < 9
  · by_cases hw : w.type < 9
    · -- below 9 the shift is injective
      simpa [hv, hw] using hclass
    · simp_all
  · simp [hv] at hset

/-- A value has the class of the type `t + 1` exactly if its tag is `t`. -/
theorem getParameterType_eq_iff (hT : T.Prescribed) (v : ParameterValue) {t : UInt8}
    (ht : t < 9) : getParameterType T v = t + 1 ↔ v.type = t := by
  rw [getParameterType_eq hT]
  by_cases hv : v.type < 9
  · simp [hv]
  · have hne : v.type ≠ t := fun h => hv (h ▸ ht)
    -- the class of the unknown tags is none of the shifted ones
    have hpos : (0 : UInt8) ≠ t + 1 := by
      intro h
      have hlt := UInt8.lt_iff_toNat_lt.mp ht
      have hnat := congrArg UInt8.toNat h
      simp at hlt hnat
      omega
    simp [hv, hne, hpos]

/-- A typed getter on a declared name returns the payload if the stored value has the class it asks
for, and throws otherwise. -/
theorem getParameterAs_of_find {α : Type} {p : MyParameter} {n : String} {v : ParameterValue}
    (h : p.find n = some v) (wanted : UInt8) (what : String) (payload : ParameterValue → α) :
    p.getParameterAs T n wanted what payload =
      if getParameterType T v = wanted then .ok (payload v)
      else .error ("Parameter is not of type " ++ what ++ ": " ++ n) := by
  rw [getParameterAs, getParameter_of_find h]
  by_cases hclass : getParameterType T v = wanted <;>
    simp [bind, Except.bind, pure, Except.pure, throw, throwThe, MonadExceptOf.throw, hclass]

end MyParameter

/-- The call throws. -/
def Throws {α : Type} (r : Except String α) : Prop :=
  ∃ what, r = .error what

@[simp] theorem throws_error {α : Type} (what : String) :
    Throws (.error what : Except String α) :=
  ⟨what, rfl⟩

@[simp] theorem not_throws_ok {α : Type} (a : α) : ¬ Throws (.ok a : Except String α) := by
  rintro ⟨what, ⟨⟩⟩

/-- A value `v` stored under `n` as `rcl_interfaces` prescribes is read back by the getter of its
type, and by no other. -/
structure RoundTrips (T : ParameterType) (p : MyParameter) (n : String) (v : ParameterValue) :
    Prop where
  bool : v.type = T.parameterBool →
    p.getParameterBool T n = .ok v.boolValue ∧ Throws (p.getParameterInt T n) ∧
      Throws (p.getParameterDouble T n) ∧ Throws (p.getParameterString T n)
  integer : v.type = T.parameterInteger →
    p.getParameterInt T n = .ok v.integerValue ∧ Throws (p.getParameterBool T n) ∧
      Throws (p.getParameterDouble T n) ∧ Throws (p.getParameterString T n)
  double : v.type = T.parameterDouble →
    p.getParameterDouble T n = .ok v.doubleValue ∧ Throws (p.getParameterBool T n) ∧
      Throws (p.getParameterInt T n) ∧ Throws (p.getParameterString T n)
  string : v.type = T.parameterString →
    p.getParameterString T n = .ok v.stringValue ∧ Throws (p.getParameterBool T n) ∧
      Throws (p.getParameterInt T n) ∧ Throws (p.getParameterDouble T n)
  other : v.type ∉ [T.parameterBool, T.parameterInteger, T.parameterDouble, T.parameterString] →
    Throws (p.getParameterBool T n) ∧ Throws (p.getParameterInt T n) ∧
      Throws (p.getParameterDouble T n) ∧ Throws (p.getParameterString T n)

variable {p : MyParameter} {n : String} {v : ParameterValue}

/-- The getter of a class throws exactly on the stored values of another class. -/
theorem throws_getParameterAs_iff {α : Type} (h : p.find n = some v) (wanted : UInt8)
    (what : String) (payload : ParameterValue → α) :
    Throws (p.getParameterAs T n wanted what payload) ↔ getParameterType T v ≠ wanted := by
  rw [getParameterAs_of_find h]
  by_cases hclass : getParameterType T v = wanted <;> simp [hclass]

/-- Which getters throw on a stored value, by its tag: the getter of tag `t` reads the values with
tag `t - 1`. -/
theorem throws_getters_iff (hT : T.Prescribed) (h : p.find n = some v) :
    (Throws (p.getParameterBool T n) ↔ v.type ≠ 0) ∧
      (Throws (p.getParameterInt T n) ↔ v.type ≠ 1) ∧
      (Throws (p.getParameterDouble T n) ↔ v.type ≠ 2) ∧
      (Throws (p.getParameterString T n) ↔ v.type ≠ 3) := by
  have class_iff {t : UInt8} (ht : t < 9) := (getParameterType_eq_iff hT v ht).not
  refine ⟨?_, ?_, ?_, ?_⟩
  · rw [getParameterBool, throws_getParameterAs_iff h, hT.bool]
    exact class_iff (t := 0) (by decide)
  · rw [getParameterInt, throws_getParameterAs_iff h, hT.integer]
    exact class_iff (t := 1) (by decide)
  · rw [getParameterDouble, throws_getParameterAs_iff h, hT.double]
    exact class_iff (t := 2) (by decide)
  · rw [getParameterString, throws_getParameterAs_iff h, hT.string]
    exact class_iff (t := 3) (by decide)

/-- A stored value round-trips exactly if its tag is none of `PARAMETER_NOT_SET` and the four
scalar types. -/
theorem roundTrips_iff (hT : T.Prescribed) (h : p.find n = some v) :
    RoundTrips T p n v ↔ 5 ≤ v.type := by
  obtain ⟨hbool, hint, hdouble, hstring⟩ := throws_getters_iff hT h
  have small : ∀ t : UInt8, 5 ≤ t ∨ t = 0 ∨ t = 1 ∨ t = 2 ∨ t = 3 ∨ t = 4 := by decide +kernel
  have large : ∀ t : UInt8, 5 ≤ t → t ≠ 0 ∧ t ≠ 1 ∧ t ≠ 2 ∧ t ≠ 3 ∧ t ≠ 4 := by decide +kernel
  constructor
  · intro hr
    rcases small v.type with hge | h0 | h1 | h2 | h3 | h4
    · exact hge
    · -- a value that is not set is read as a bool
      have hother := hr.other (by simp [h0, hT.bool, hT.integer, hT.double, hT.string])
      exact absurd h0 (hbool.mp hother.1)
    -- a value of a scalar type is not read by its own getter
    · have hread := (hr.bool (by rw [h1, hT.bool])).1
      exact absurd (hbool.mpr (by simp [h1])) (by simp [hread])
    · have hread := (hr.integer (by rw [h2, hT.integer])).1
      exact absurd (hint.mpr (by simp [h2])) (by simp [hread])
    · have hread := (hr.double (by rw [h3, hT.double])).1
      exact absurd (hdouble.mpr (by simp [h3])) (by simp [hread])
    · have hread := (hr.string (by rw [h4, hT.string])).1
      exact absurd (hstring.mpr (by simp [h4])) (by simp [hread])
  · intro hge
    obtain ⟨h0, h1, h2, h3, h4⟩ := large v.type hge
    exact
      { bool := fun hv => absurd (hv.trans hT.bool) h1
        integer := fun hv => absurd (hv.trans hT.integer) h2
        double := fun hv => absurd (hv.trans hT.double) h3
        string := fun hv => absurd (hv.trans hT.string) h4
        other := fun _ => ⟨hbool.mpr h0, hint.mpr h1, hdouble.mpr h2, hstring.mpr h3⟩ }

/-- The typed getters read a value back as `rcl_interfaces` prescribes exactly if its type is not
`PARAMETER_NOT_SET` and not one of the four types that have a getter. -/
theorem getters_roundTrip_iff (hT : T.Prescribed) (cs : List Call) (n : String)
    (v : ParameterValue) (hlast : lastAccepted ((machine T).log {} cs) n = some v) :
    RoundTrips T ((machine T).run {} cs) n v ↔ 5 ≤ v.type :=
  roundTrips_iff hT ((tracks_run T cs).find_eq n ▸ hlast)

/-- A byte array declared under its prescribed tag round-trips. -/
theorem getters_roundTrip_byteArray :
    RoundTrips .rclInterfaces
        ((machine .rclInterfaces).run {} [.declareParameter "blob" { type := 5 }]) "blob"
        { type := 5 } :=
  (getters_roundTrip_iff ParameterType.prescribed_rclInterfaces
    [.declareParameter "blob" { type := 5 }] "blob" { type := 5 } (by decide)).mpr (by decide)

/-- A bool declared under its prescribed tag is not read back by the bool getter. -/
theorem getters_not_roundTrip_bool :
    ¬ ∀ (cs : List Call) (n : String) (v : ParameterValue),
        lastAccepted ((machine .rclInterfaces).log {} cs) n = some v → v.type ≤ 9 →
          RoundTrips .rclInterfaces ((machine .rclInterfaces).run {} cs) n v := by
  intro hall
  have hr := hall [.declareParameter "flag" { type := 1, boolValue := true }] "flag"
    { type := 1, boolValue := true } (by decide) (by decide)
  exact absurd (hr.bool rfl).1 (by decide)

end Rclmine
