import Rclmine.Parameter.History
import Rclmine.ParameterService.Defs

/-!
# Dumping and restoring the storage

A client can read the whole storage with two requests: `list_parameters` for the names, then
`get_parameters` for exactly these. Declaring what it got on an empty storage, in any order, gives
the storage back.

The module introduces:

* `names_zip_values`: the names listed and the values sent for them pair up to the contents of the
  map;
* `declarations ps`: the calls that declare the pairs `ps` one after another. With distinct names
  they all succeed and leave exactly these pairs (`run_declarations`), whatever their order;
* `dump_restores`: the round trip.
-/

namespace Rclmine

open MyParameter MyParameterService

/-- The values of the listed names are the values of the map. -/
theorem filterMap_find_getParameterNames (s : MyParameter) :
    s.getParameterNames.filterMap s.find = s.parameters.toList.map fun param => param.2 := by
  have hfind : ∀ param ∈ s.parameters.toList, s.find param.1 = some param.2 := fun param hparam =>
    Std.ExtTreeMap.mem_toList_iff_getElem?_eq_some.mp hparam
  rw [getParameterNames, List.filterMap_map, ← List.filterMap_eq_map]
  exact List.filterMap_congr hfind

/-- The listed names and their values, paired by position, are the contents of the map. -/
theorem names_zip_values (s : MyParameter) :
    s.getParameterNames.zip (s.getParameterNames.filterMap s.find) = s.parameters.toList := by
  rw [filterMap_find_getParameterNames, getParameterNames, List.zip_map']
  exact List.map_id _

/-- The calls that declare the pairs one after another. -/
def declarations (ps : List (String × ParameterValue)) : List Call :=
  ps.map fun p => .declareParameter p.1 p.2

/-- Declarations of distinct new names all succeed, and add exactly the pairs declared. -/
theorem run_declarations (T : ParameterType) {s : MyParameter}
    {ps : List (String × ParameterValue)} (hnew : ∀ p ∈ ps, s.find p.1 = none)
    (hdistinct : (ps.map Prod.fst).Nodup) :
    (machine T).results s (declarations ps) = ps.map (fun _ => .flag true) ∧
      ∀ n v, ((machine T).run s (declarations ps)).find n = some v ↔
        (n, v) ∈ ps ∨ s.find n = some v := by
  induction ps generalizing s with
  | nil => simp [declarations]
  | cons p ps ih =>
      obtain ⟨m, w⟩ := p
      rw [List.forall_mem_cons] at hnew
      rw [List.map_cons, List.nodup_cons] at hdistinct
      have hcall := declareParameter_of_find_none hnew.1 w
      -- the other names are still new after the first declaration
      have hrest : ∀ p ∈ ps, (s.assign m w).find p.1 = none := by
        intro p hp
        have hmem : p.1 ∈ ps.map Prod.fst := List.mem_map_of_mem hp
        have hne : m ≠ p.1 := fun h => hdistinct.1 (h ▸ hmem)
        rw [find_assign_of_ne s w hne, hnew.2 p hp]
      obtain ⟨hresults, hfind⟩ := ih hrest hdistinct.2
      have hstep : (machine T).step s (.declareParameter m w) = (.flag true, s.assign m w) := by
        simp [machine, hcall]
      refine ⟨?_, fun n v => ?_⟩
      · rw [declarations, List.map_cons, Mealy.results_cons, hstep, List.map_cons]
        exact congrArg _ hresults
      · rw [declarations, List.map_cons, Mealy.run_cons, hstep]
        refine (hfind n v).trans ?_
        rw [List.mem_cons, Prod.mk.injEq, find_assign]
        by_cases hmn : m = n
        · subst hmn
          simp [hnew.1, eq_comm, or_comm]
        · simp [hmn, Ne.symm hmn]

/-- The storage can be restored from what the parameter service tells about it: `list_parameters`
lists its names in increasing order, `get_parameters` has a value for each of them, and declaring
these pairs on an empty storage, in whatever order, succeeds every time and gives a storage that is
equal to the original one and hence answers every later sequence of calls alike. -/
theorem dump_restores (T : ParameterType) (s : MyParameter) (header header' : RequestId) :
    ∃ ns vs, listParametersHandler s (some (header, {})) =
        (.ok (some (header, { names := ns })), s) ∧
      getParametersHandler s (some (header', { names := ns })) =
        (.ok (some (header', { values := vs })), s) ∧
      ns.Pairwise (· < ·) ∧ vs.length = ns.length ∧
      ∀ ps, ps.Perm (ns.zip vs) →
        (machine T).results {} (declarations ps) = ps.map (fun _ => .flag true) ∧
        (machine T).run {} (declarations ps) = s ∧
        ∀ cs, (machine T).log ((machine T).run {} (declarations ps)) cs = (machine T).log s cs := by
  refine ⟨_, _, listParametersHandler_some s header {}, getParametersHandler_some s header' _,
    sortedLT_getParameterNames s, ?_, fun ps hperm => ?_⟩
  · rw [filterMap_find_getParameterNames, getParameterNames, List.length_map, List.length_map]
  · rw [names_zip_values] at hperm
    -- the map has each name once, and so has every permutation of its contents
    have hdistinct : (ps.map Prod.fst).Nodup :=
      (hperm.map Prod.fst).nodup_iff.mpr ((sortedLT_getParameterNames s).imp ne_of_lt)
    obtain ⟨hresults, hfind⟩ := run_declarations T (s := {}) (fun p _ => find_empty p.1) hdistinct
    have hrestored : (machine T).run {} (declarations ps) = s := by
      apply ext_find
      intro n
      ext v
      rw [hfind, find_empty, hperm.mem_iff, Std.ExtTreeMap.mem_toList_iff_getElem?_eq_some]
      simp [find]
    exact ⟨hresults, hrestored, fun cs => by rw [hrestored]⟩

end Rclmine
