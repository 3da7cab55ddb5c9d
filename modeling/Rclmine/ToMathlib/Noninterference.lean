import Rclmine.ToMathlib.Mealy

/-!
# Noninterference

What an observer learns from a run of a Mealy machine when some of the actions cannot affect what it
sees.

The module introduces:

* `Unwinding M A view relevant`: of the actions in `A`, the relevant ones read and write nothing of
  the state but its view, and the others do not write the view;
* `Unwinding.purge`: deleting the irrelevant actions from a run changes neither the view of the
  state it ends in nor the results of the relevant actions, which is proved from the conditions on
  single steps;
* `Unwinding.noninterference`: two runs with the same relevant actions cannot be told apart;
* `results_eq_map`: if no action writes the view at all, every action of a run is answered as it
  would be in the first state.
-/

namespace Mealy

variable {σ α ρ ο : Type*} {M : Mealy σ α ρ}

/-- The conditions on single steps under which the actions of `A` that are not relevant do not
interfere with the view. -/
structure Unwinding (M : Mealy σ α ρ) (A : Set α) (view : σ → ο) (relevant : α → Prop) :
    Prop where
  /-- An irrelevant action does not write the view. -/
  view_irrelevant : ∀ a ∈ A, ¬ relevant a → ∀ s, view (M.step s a).2 = view s
  /-- The result of a relevant action is determined by the view. -/
  result_congr : ∀ a ∈ A, relevant a → ∀ s s', view s = view s' →
    (M.step s a).1 = (M.step s' a).1
  /-- So is the view after it. -/
  view_congr : ∀ a ∈ A, relevant a → ∀ s s', view s = view s' →
    view (M.step s a).2 = view (M.step s' a).2

namespace Unwinding

variable {A : Set α} {view : σ → ο} {relevant : α → Prop}

/-- A run of irrelevant actions does not write the view. -/
theorem view_run_of_irrelevant (h : Unwinding M A view relevant) (s : σ) {as : List α}
    (hA : ∀ a ∈ as, a ∈ A) (hirr : ∀ a ∈ as, ¬ relevant a) : view (M.run s as) = view s := by
  induction as generalizing s with
  | nil => rfl
  | cons a as ih =>
      rw [List.forall_mem_cons] at hA hirr
      rw [run_cons, ih _ hA.2 hirr.2, h.view_irrelevant a hA.1 hirr.1]

/-- The results of a run of relevant actions and the view after it are determined by the view before
it. -/
theorem run_congr_of_relevant (h : Unwinding M A view relevant) {s s' : σ} {as : List α}
    (hA : ∀ a ∈ as, a ∈ A) (hrel : ∀ a ∈ as, relevant a) (hview : view s = view s') :
    M.results s as = M.results s' as ∧ view (M.run s as) = view (M.run s' as) := by
  induction as generalizing s s' with
  | nil => exact ⟨rfl, hview⟩
  | cons a as ih =>
      rw [List.forall_mem_cons] at hA hrel
      obtain ⟨hresults, hrun⟩ := ih hA.2 hrel.2 (h.view_congr a hA.1 hrel.1 s s' hview)
      rw [results_cons, results_cons, h.result_congr a hA.1 hrel.1 s s' hview, hresults]
      exact ⟨rfl, hrun⟩

variable [DecidablePred relevant]

/-- A run and the one without its irrelevant actions, from states with the same view, end in states
with the same view and give the relevant actions the same results. -/
theorem purge (h : Unwinding M A view relevant) {s s' : σ} {as : List α} (hA : ∀ a ∈ as, a ∈ A)
    (hview : view s = view s') :
    (M.log s as).filter (fun e => relevant e.1) = M.log s' (as.filter fun a => relevant a) ∧
      view (M.run s as) = view (M.run s' (as.filter fun a => relevant a)) := by
  induction as generalizing s s' with
  | nil => exact ⟨rfl, hview⟩
  | cons a as ih =>
      rw [List.forall_mem_cons] at hA
      by_cases hrel : relevant a
      · -- both runs take the step
        obtain ⟨hlog, hrun⟩ := ih hA.2 (h.view_congr a hA.1 hrel s s' hview)
        simp [hrel, hlog, hrun, h.result_congr a hA.1 hrel s s' hview]
      · -- only the first one does, and its view stays
        obtain ⟨hlog, hrun⟩ := ih hA.2 ((h.view_irrelevant a hA.1 hrel s).trans hview)
        simp [hrel, hlog, hrun]

/-- Two runs with the same relevant actions, from states with the same view, give these actions the
same results and end in states with the same view. -/
theorem noninterference (h : Unwinding M A view relevant) {s s' : σ} {as as' : List α}
    (hA : ∀ a ∈ as, a ∈ A) (hA' : ∀ a ∈ as', a ∈ A) (hview : view s = view s')
    (heq : (as.filter fun a => relevant a) = as'.filter fun a => relevant a) :
    (M.log s as).filter (fun e => relevant e.1) = (M.log s' as').filter (fun e => relevant e.1) ∧
      view (M.run s as) = view (M.run s' as') := by
  obtain ⟨hlog, hrun⟩ := h.purge hA hview
  obtain ⟨hlog', hrun'⟩ := h.purge hA' (rfl : view s' = view s')
  rw [hlog, hrun, heq, hlog', hrun']
  exact ⟨rfl, rfl⟩

end Unwinding

/-- If no action writes the view and the view determines every result, the actions of a run are
answered as they would be in the state it starts in. -/
theorem results_eq_map {view : σ → ο} (hview : ∀ s a, view (M.step s a).2 = view s)
    (hresult : ∀ s s' a, view s = view s' → (M.step s a).1 = (M.step s' a).1) (s : σ)
    (as : List α) : M.results s as = as.map fun a => (M.step s a).1 := by
  suffices hgen : ∀ s', view s' = view s → M.results s' as = as.map fun a => (M.step s a).1 from
    hgen s rfl
  induction as with
  | nil => exact fun s' _ => rfl
  | cons a as ih =>
      intro s' hs'
      rw [results_cons, List.map_cons, hresult s' s a hs', ih _ ((hview s' a).trans hs')]

end Mealy
