import Rclmine.Parameter.Getters
import Rclmine.ParameterService.Entries

/-!
# Declarations and set requests

Runs of the storage in which names are declared by the program that owns it and updated by the
`set_parameters` handler.

The module introduces:

* `Update` and `storageAfter T us`: the storage after a sequence of declarations and
  `set_parameters` requests;
* `KeepsClass T s s'`: every name declared in `s` is declared in `s'` with a value of its class. It
  is a preorder that every declaration, every entry of a request and hence every run respects;
* `class_never_changes`: what the class check promises about the `type` field of a parameter.
-/

namespace Rclmine

open MyParameter MyParameterService

/-- A declaration, or a request the `set_parameters` handler takes. -/
inductive Update
  | declareParameter (name : String) (value : ParameterValue)
  | setParameters (header : RequestId) (req : SetParameters.Request)

/-- The storage after an update. -/
def applyUpdate (T : ParameterType) (s : MyParameter) : Update → MyParameter
  | .declareParameter n v => (s.declareParameter n v).2
  | .setParameters header req => (setParametersHandler T s (some (header, req))).2

/-- The storage after a sequence of updates of the empty one. -/
def storageAfter (T : ParameterType) (us : List Update) : MyParameter :=
  us.foldl (applyUpdate T) {}

/-- The names declared in `s` are declared in `s'` with values of the same class. -/
def KeepsClass (T : ParameterType) (s s' : MyParameter) : Prop :=
  ∀ n w, s.find n = some w →
    ∃ v, s'.find n = some v ∧ getParameterType T v = getParameterType T w

variable {T : ParameterType} {s s' s'' : MyParameter}

theorem KeepsClass.refl (T : ParameterType) (s : MyParameter) : KeepsClass T s s :=
  fun _ w hw => ⟨w, hw, rfl⟩

theorem KeepsClass.trans (h : KeepsClass T s s') (h' : KeepsClass T s' s'') :
    KeepsClass T s s'' := by
  intro n w hw
  obtain ⟨u, hu, huw⟩ := h n w hw
  obtain ⟨v, hv, hvu⟩ := h' n u hu
  exact ⟨v, hv, hvu.trans huw⟩

/-- A declaration writes no name that had a value. -/
theorem keepsClass_declareParameter (T : ParameterType) (s : MyParameter) (n : String)
    (v : ParameterValue) : KeepsClass T s (s.declareParameter n v).2 := by
  rcases declareParameter_cases s n v with ⟨hnone, hcall⟩ | ⟨-, hcall⟩ <;> rw [hcall]
  · intro m w hw
    -- the new name had no value, so `m` is another one
    have hne : n ≠ m := by
      rintro rfl
      rw [hnone] at hw
      cases hw
    exact ⟨w, by rw [find_assign_of_ne s v hne, hw], rfl⟩
  · exact KeepsClass.refl T s

/-- The entries of a request keep the classes. -/
theorem keepsClass_entries (T : ParameterType) (s : MyParameter) (parameters : List Parameter) :
    KeepsClass T s ((entryMachine T).run s parameters) := by
  intro n w hw
  have hclass := congrFun (storedClass_run_entries (T := T) s parameters) n
  rw [storedClass, storedClass, hw, Option.map_some, Option.map_eq_some_iff] at hclass
  exact hclass

theorem keepsClass_applyUpdate (T : ParameterType) (s : MyParameter) (u : Update) :
    KeepsClass T s (applyUpdate T s u) := by
  cases u with
  | declareParameter n v => exact keepsClass_declareParameter T s n v
  | setParameters header req =>
      rw [applyUpdate, setParametersHandler_some]
      exact keepsClass_entries T s req.parameters

/-- A run of updates keeps the classes. -/
theorem keepsClass_foldl (T : ParameterType) (s : MyParameter) (us : List Update) :
    KeepsClass T s (us.foldl (applyUpdate T) s) := by
  induction us generalizing s with
  | nil => exact KeepsClass.refl T s
  | cons u us ih => exact (keepsClass_applyUpdate T s u).trans (ih (applyUpdate T s u))

/-- The `type` field of a declared parameter never changes, and an update that would change it is
rejected. -/
def TypeNeverChanges (T : ParameterType) : Prop :=
  (∀ before n w later v, ((storageAfter T before).declareParameter n w).1 = true →
      (storageAfter T (before ++ .declareParameter n w :: later)).getParameter n = .ok v →
      v.type = w.type) ∧
    ∀ us n v w, (storageAfter T us).getParameter n = .ok w → v.type ≠ w.type →
      (storageAfter T us).setParameter T n v = (false, storageAfter T us)

/-- In every run of declarations and set requests the class of a declared parameter never changes,
and its `type` field with it unless the class is `PARAMETER_NOT_SET`. An update to another class is
rejected and changes nothing, hence so is one to another `type` unless both values are of class
`PARAMETER_NOT_SET`. -/
theorem class_never_changes (hT : T.Prescribed) :
    (∀ before n w later, ((storageAfter T before).declareParameter n w).1 = true →
      ∃ v, (storageAfter T (before ++ .declareParameter n w :: later)).getParameter n = .ok v ∧
        getParameterType T v = getParameterType T w ∧
        (getParameterType T w ≠ T.parameterNotSet → v.type = w.type)) ∧
    ∀ us n v w, (storageAfter T us).getParameter n = .ok w →
      (getParameterType T v ≠ getParameterType T w ∨
        v.type ≠ w.type ∧ (getParameterType T v ≠ T.parameterNotSet ∨
          getParameterType T w ≠ T.parameterNotSet)) →
      (storageAfter T us).setParameter T n v = (false, storageAfter T us) := by
  constructor
  · intro before n w later hdecl
    -- the declaration stores `w`, and the rest of the run keeps its class
    have hstored : (applyUpdate T (storageAfter T before) (.declareParameter n w)).find n
        = some w := by
      rcases declareParameter_cases (storageAfter T before) n w with ⟨-, hcall⟩ | ⟨-, hcall⟩
      · simp [applyUpdate, hcall]
      · simp [hcall] at hdecl
    obtain ⟨v, hv, hclass⟩ := keepsClass_foldl T _ later n w hstored
    have hrun : storageAfter T (before ++ .declareParameter n w :: later) =
        later.foldl (applyUpdate T)
          (applyUpdate T (storageAfter T before) (.declareParameter n w)) := by
      simp [storageAfter]
    refine ⟨v, ?_, hclass, type_eq_of_getParameterType_eq hT hclass⟩
    rw [hrun, getParameter_eq_ok_iff, hv]
  · intro us n v w hw hdiff
    -- different tags in a class that is set are different classes
    have hclass : getParameterType T w ≠ getParameterType T v := by
      rcases hdiff with hclass | ⟨htype, hset⟩
      · exact hclass.symm
      · intro hclass
        refine htype (type_eq_of_getParameterType_eq hT hclass.symm ?_)
        rcases hset with hset | hset
        · exact hclass ▸ hset
        · exact hset
    rw [setParameter_of_find_some (getParameter_eq_ok_iff.mp hw), if_neg hclass]

/-- The theorem at the constants of `rcl_interfaces`. -/
theorem class_never_changes_rclInterfaces :
    ∃ v, (storageAfter .rclInterfaces
        [.declareParameter "n" { type := 1 }, .setParameters ⟨0, 0⟩ ⟨[⟨"n", { type := 2 }⟩]⟩]
        ).getParameter "n" = .ok v ∧
      getParameterType .rclInterfaces v = 2 ∧ ((2 : UInt8) ≠ 0 → v.type = 1) :=
  (class_never_changes ParameterType.prescribed_rclInterfaces).1 [] "n" { type := 1 }
    [.setParameters ⟨0, 0⟩ ⟨[⟨"n", { type := 2 }⟩]⟩] (by decide)

/-- A parameter declared with the tag 10 is overwritten by a value with the tag 11: both are tags
that `get_parameter_type` does not know. -/
theorem not_typeNeverChanges : ¬ TypeNeverChanges .rclInterfaces := by
  intro h
  have htype := h.1 [] "n" { type := 10 } [.setParameters ⟨0, 0⟩ ⟨[⟨"n", { type := 11 }⟩]⟩]
    { type := 11 } (by decide) (by decide)
  exact absurd htype (by decide)

end Rclmine
