import Rclmine.ParameterService.Defs
import Rclmine.ToMathlib.Noninterference

/-!
# The entries of a set request

The `set_parameters` handler judges each entry of a request against the storage that the entries
before it left. What it compares there is only the class of the stored value, and no entry changes
the class stored for any name; so every entry is judged as if it were alone.

The module introduces:

* `storedClass T s`: the class stored for each name, which no entry changes
  (`storedClass_entry`) and which decides whether an entry is successful (`successful_iff`);
* `lastSuccessful n entries`: the value of the last successful entry for `n`, which is what a run of
  entries leaves for `n` (`find_run_entries`);
* `setParameters_entry_by_entry`: the response and the storage after a request, entry by entry.
-/

namespace Rclmine

open MyParameter MyParameterService

variable {T : ParameterType}

/-- The class of the value stored for each name. -/
def storedClass (T : ParameterType) (s : MyParameter) (n : String) : Option UInt8 :=
  (s.find n).map (getParameterType T)

/-- An entry is successful exactly if its value has the class stored for its name. -/
theorem successful_iff (s : MyParameter) (p : Parameter) :
    ((entryMachine T).step s p).1.successful = true ↔
      storedClass T s p.name = some (getParameterType T p.value) := by
  rw [entryMachine_successful, storedClass]
  cases h : s.find p.name with
  | none => simp [setParameter_of_find_none h]
  | some w =>
      by_cases hclass : getParameterType T w = getParameterType T p.value <;>
        simp [setParameter_of_find_some h, hclass]

/-- An entry is reported with a reason exactly if it is not successful. -/
theorem reason_eq_empty_iff (s : MyParameter) (p : Parameter) :
    ((entryMachine T).step s p).1.reason = "" ↔
      ((entryMachine T).step s p).1.successful = true := by
  cases h : (s.setParameter T p.name p.value).1 <;> simp [entryMachine, setParametersEntry, h]

/-- An entry writes its value under its name if it is successful, and nothing else. -/
theorem find_entry (s : MyParameter) (p : Parameter) (n : String) :
    ((entryMachine T).step s p).2.find n =
      if p.name = n ∧ ((entryMachine T).step s p).1.successful = true then some p.value
      else s.find n := by
  rw [entryMachine_successful, entryMachine_post]
  rcases setParameter_cases T s p.name p.value with ⟨w, -, -, hcall⟩ | ⟨-, hcall⟩ <;> rw [hcall]
  · simp [find_assign]
  · simp

/-- No entry changes the stored classes. -/
theorem storedClass_entry (s : MyParameter) (p : Parameter) :
    storedClass T ((entryMachine T).step s p).2 = storedClass T s := by
  ext n : 1
  by_cases hwrite : p.name = n ∧ ((entryMachine T).step s p).1.successful = true
  · -- the new value has the class of the one it replaces
    obtain ⟨rfl, hok⟩ := hwrite
    rw [(successful_iff s p).mp hok, storedClass, find_entry, if_pos ⟨rfl, hok⟩, Option.map_some]
  · rw [storedClass, find_entry, if_neg hwrite, storedClass]

/-- The class stored for its name determines the result of an entry. -/
theorem result_congr_of_storedClass {s s' : MyParameter} (p : Parameter)
    (h : storedClass T s p.name = storedClass T s' p.name) :
    ((entryMachine T).step s p).1 = ((entryMachine T).step s' p).1 := by
  have hflag : (s.setParameter T p.name p.value).1 = (s'.setParameter T p.name p.value).1 := by
    rw [← entryMachine_successful, ← entryMachine_successful, Bool.eq_iff_iff, successful_iff,
      successful_iff, h]
  simp only [entryMachine, setParametersEntry, hflag]

/-- Every entry of a request is answered as it would be alone. -/
theorem results_entries (s : MyParameter) (parameters : List Parameter) :
    (entryMachine T).results s parameters =
      parameters.map fun p => ((entryMachine T).step s p).1 :=
  Mealy.results_eq_map storedClass_entry
    (fun _ _ p h => result_congr_of_storedClass p (congrFun h p.name)) s parameters

/-! ### The storage after the entries -/

/-- The value of the last successful entry for `n`, among entries with their results. -/
def lastSuccessful (n : String) (entries : List (Parameter × SetParametersResult)) :
    Option ParameterValue :=
  ((entries.filter fun e => e.1.name = n ∧ e.2.successful = true).getLast?).map fun e => e.1.value

theorem lastSuccessful_snoc (n : String) (entries : List (Parameter × SetParametersResult))
    (p : Parameter) (r : SetParametersResult) :
    lastSuccessful n (entries ++ [(p, r)]) =
      if p.name = n ∧ r.successful = true then some p.value else lastSuccessful n entries := by
  by_cases h : p.name = n ∧ r.successful = true <;> simp [lastSuccessful, h]

/-- A run of entries leaves for each name the value of the last successful entry for it, and the
stored one if there is none. -/
theorem find_run_entries (s : MyParameter) (parameters : List Parameter) (n : String) :
    ((entryMachine T).run s parameters).find n =
      (lastSuccessful n ((entryMachine T).log s parameters)).or (s.find n) := by
  refine (entryMachine T).log_invariant
    (fun l s' => s'.find n = (lastSuccessful n l).or (s.find n)) (by simp [lastSuccessful])
    (fun l s' p hl => ?_) parameters
  rw [lastSuccessful_snoc, find_entry]
  by_cases hwrite : p.name = n ∧ ((entryMachine T).step s' p).1.successful = true
  · rw [if_pos hwrite, if_pos hwrite, Option.some_or]
  · rw [if_neg hwrite, if_neg hwrite, hl]

/-- A run of entries leaves the stored classes as they were. -/
theorem storedClass_run_entries (s : MyParameter) (parameters : List Parameter) :
    storedClass T ((entryMachine T).run s parameters) = storedClass T s :=
  ((entryMachine T).invariant_of_step' (fun s' => storedClass T s' = storedClass T s)
    (fun s' p h => (storedClass_entry s' p).trans h) parameters rfl).1

/-- No entry declares or removes a name. -/
theorem hasParameter_run_entries (T : ParameterType) (s : MyParameter)
    (parameters : List Parameter) (n : String) :
    ((entryMachine T).run s parameters).hasParameter n = s.hasParameter n := by
  have hclass := congrFun (storedClass_run_entries (T := T) s parameters) n
  simpa [storedClass, hasParameter] using congrArg Option.isSome hclass

/-- A `set_parameters` request is answered entry by entry: the response has one result for each
entry, in request order; an entry is successful exactly if its name is declared before the request
with a value of the same class, and its reason is empty exactly then. The storage afterwards has the
same names, each with the value of the last successful entry for it, or its old one. -/
theorem setParameters_entry_by_entry (T : ParameterType) (s : MyParameter) (header : RequestId)
    (req : SetParameters.Request) :
    ∃ resp s', setParametersHandler T s (some (header, req)) = (.ok (some (header, resp)), s') ∧
      resp.results.length = req.parameters.length ∧
      (∀ (i : ℕ) p r, req.parameters[i]? = some p → resp.results[i]? = some r →
        (r.successful = true ↔ ∃ w, s.getParameter p.name = .ok w ∧
          getParameterType T p.value = getParameterType T w) ∧
        (r.reason = "" ↔ r.successful = true)) ∧
      ∀ n, s'.hasParameter n = s.hasParameter n ∧
        s'.find n = (lastSuccessful n (req.parameters.zip resp.results)).or (s.find n) := by
  refine ⟨_, _, setParametersHandler_some s header req, ?_, fun i p r hp hr => ?_,
    fun n => ⟨hasParameter_run_entries T s req.parameters n, ?_⟩⟩
  · rw [results_entries, List.length_map]
  · -- the result at position `i` is that of the entry in the storage before the request
    rw [results_entries, List.getElem?_map, hp, Option.map_some, Option.some.injEq] at hr
    subst hr
    refine ⟨?_, reason_eq_empty_iff s p⟩
    rw [successful_iff, storedClass, Option.map_eq_some_iff]
    exact exists_congr fun w => and_congr getParameter_eq_ok_iff.symm eq_comm
  · rw [Mealy.zip_results]
    exact find_run_entries s req.parameters n

end Rclmine
