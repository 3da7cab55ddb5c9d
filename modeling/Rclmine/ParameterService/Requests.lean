import Rclmine.Parameter.History
import Rclmine.ParameterService.Defs

/-!
# The responses of the parameter service

What a single request is answered, entry by entry. A `get_parameters` response holds the values of
the declared names among those asked for, in the order asked, and nothing for the others
(`getParameters_answers_declared`), so it can be read position by position exactly if all names
asked for are declared.
-/

namespace Rclmine

open MyParameter MyParameterService

/-- The values found for a list of names are those of the declared names among them. -/
theorem map_some_filterMap_find (storage : MyParameter) (names : List String) :
    (names.filterMap storage.find).map some =
      (names.filter storage.hasParameter).map storage.find := by
  induction names with
  | nil => rfl
  | cons name names ih =>
      cases hfind : storage.find name with
      | none => simpa [hasParameter, hfind] using ih
      | some v => simpa [hasParameter, hfind] using ih

/-- The values pair with the names by index: there are as many, and each declared name stands where
its value does. -/
def PositionByPosition (storage : MyParameter) (names : List String)
    (values : List ParameterValue) : Prop :=
  values.length = names.length ∧
    ∀ (i : ℕ) name v, names[i]? = some name → storage.getParameter name = .ok v →
      values[i]? = some v

/-- The values found for a list of names pair with it by index exactly if all are declared. -/
theorem positionByPosition_filterMap_find (storage : MyParameter) (names : List String) :
    PositionByPosition storage names (names.filterMap storage.find) ↔
      ∀ name ∈ names, storage.hasParameter name = true := by
  constructor
  · rintro ⟨hlen, -⟩
    exact List.filterMap_length_eq_length.mp hlen
  · intro hall
    have hmap : (names.filterMap storage.find).map some = names.map storage.find := by
      rw [map_some_filterMap_find, List.filter_eq_self.mpr hall]
    refine ⟨List.filterMap_length_eq_length.mpr hall, fun i name v hname hv => ?_⟩
    have hi := congrArg (fun l : List (Option ParameterValue) => l[i]?) hmap
    simp only [List.getElem?_map, hname, Option.map_some, getParameter_eq_ok_iff.mp hv] at hi
    simpa using hi

/-- The `get_parameters` handler sends one value for each declared name of the request, in request
order, and none for an undeclared one; so its values pair with the names by index exactly if every
name of the request is declared. -/
theorem getParameters_answers_declared (storage : MyParameter) (header : RequestId)
    (req : GetParameters.Request) :
    ∃ values, getParametersHandler storage (some (header, req)) =
        (.ok (some (header, { values })), storage) ∧
      values.length = (req.names.filter storage.hasParameter).length ∧
      (∀ (i : ℕ) name, (req.names.filter storage.hasParameter)[i]? = some name →
        ∃ v, values[i]? = some v ∧ storage.getParameter name = .ok v) ∧
      (PositionByPosition storage req.names values ↔
        ∀ name ∈ req.names, storage.hasParameter name = true) := by
  refine ⟨_, getParametersHandler_some storage header req, ?_, ?_,
    positionByPosition_filterMap_find storage req.names⟩
  · simpa using congrArg List.length (map_some_filterMap_find storage req.names)
  · intro i name hname
    have hmem : name ∈ req.names.filter storage.hasParameter := List.mem_of_getElem? hname
    obtain ⟨v, hv⟩ := hasParameter_eq_true_iff.mp (List.mem_filter.mp hmem).2
    have hi := congrArg (fun l : List (Option ParameterValue) => l[i]?)
      (map_some_filterMap_find storage req.names)
    simp only [List.getElem?_map, hname, Option.map_some, hv] at hi
    exact ⟨v, by simpa using hi, getParameter_of_find hv⟩

/-- Asked for an undeclared name before a declared one, the handler sends a single value. -/
theorem getParameters_not_positional :
    ¬ ∀ (cs : List Call) (header : RequestId) (req : GetParameters.Request)
        (values : List ParameterValue),
        (getParametersHandler ((machine .rclInterfaces).run {} cs) (some (header, req))).1 =
            .ok (some (header, { values })) →
          PositionByPosition ((machine .rclInterfaces).run {} cs) req.names values := by
  intro h
  have hpos := h [.declareParameter "b" { type := 1 }] ⟨0, 0⟩ ⟨["a", "b"]⟩ [{ type := 1 }] (by rfl)
  exact absurd hpos.1 (by decide)

end Rclmine
