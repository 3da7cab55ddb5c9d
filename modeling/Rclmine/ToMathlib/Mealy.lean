import Mathlib.Data.List.Induction

/-!
# Mealy machines

A Mealy machine answers every action with a result and moves to a new state. This module fixes
the vocabulary in which the components of the development are run and the rules by which facts
about one step become facts about every run.

The module introduces:

* `run M s as`, `transitions M s as` and `log M s as`: the state a run ends in, the transitions it
  makes and the actions with their results;
* `mem_transitions`: a transition of a run starts in the state reached by some prefix of it;
* `invariant_of_step` and `log_invariant`: the induction rules for a state invariant, conditional
  on what the transitions of the run look like, and for one that mentions the log;
* `results_of_simulation`: machines whose steps have related results have runs with related results;
* `upTo stop`: the results of a run that ends with the first result satisfying `stop`;
* `Prunes`: deleting elements of a list that satisfy a predicate; `log_of_prunes` says that
  deleting calls that left the state alone changes no other result.
-/

/-- A machine that answers every action with a result and a new state. -/
structure Mealy (σ α ρ : Type*) where
  /-- The result of an action and the state after it. -/
  step : σ → α → ρ × σ

namespace Mealy

variable {σ α ρ : Type*}

/-- One step of a run. -/
structure Transition (σ α ρ : Type*) where
  /-- The state before the step. -/
  pre : σ
  /-- The action taken. -/
  action : α
  /-- The result the machine answered. -/
  result : ρ
  /-- The state after the step. -/
  post : σ

variable (M : Mealy σ α ρ)

/-- The transition `M` makes on `a` in state `s`. -/
def transition (s : σ) (a : α) : Transition σ α ρ :=
  ⟨s, a, (M.step s a).1, (M.step s a).2⟩

/-- The state after the actions `as`, taken from `s`. -/
def run (s : σ) (as : List α) : σ :=
  as.foldl (fun s a => (M.step s a).2) s

/-- The transitions of the run `as` from `s`, in order. -/
def transitions (s : σ) : List α → List (Transition σ α ρ)
  | [] => []
  | a :: as => M.transition s a :: transitions (M.step s a).2 as

/-- The results of the run `as` from `s`, in order. -/
def results (s : σ) (as : List α) : List ρ :=
  (M.transitions s as).map Transition.result

/-- The actions of the run `as` from `s`, each with its result. -/
def log (s : σ) (as : List α) : List (α × ρ) :=
  (M.transitions s as).map fun t => (t.action, t.result)

@[simp] theorem transition_pre (s : σ) (a : α) : (M.transition s a).pre = s := rfl

@[simp] theorem transition_action (s : σ) (a : α) : (M.transition s a).action = a := rfl

@[simp] theorem transition_result (s : σ) (a : α) :
    (M.transition s a).result = (M.step s a).1 := rfl

@[simp] theorem transition_post (s : σ) (a : α) : (M.transition s a).post = (M.step s a).2 := rfl

@[simp] theorem run_nil (s : σ) : M.run s [] = s := rfl

@[simp] theorem run_cons (s : σ) (a : α) (as : List α) :
    M.run s (a :: as) = M.run (M.step s a).2 as := rfl

@[simp] theorem run_append (s : σ) (as bs : List α) :
    M.run s (as ++ bs) = M.run (M.run s as) bs :=
  List.foldl_append

@[simp] theorem transitions_nil (s : σ) : M.transitions s [] = [] := rfl

@[simp] theorem transitions_cons (s : σ) (a : α) (as : List α) :
    M.transitions s (a :: as) = M.transition s a :: M.transitions (M.step s a).2 as := rfl

/-- The transitions of a run in two parts. -/
theorem transitions_append (s : σ) (as bs : List α) :
    M.transitions s (as ++ bs) = M.transitions s as ++ M.transitions (M.run s as) bs := by
  induction as generalizing s with
  | nil => rfl
  | cons a as ih => simp [ih]

@[simp] theorem results_nil (s : σ) : M.results s [] = [] := rfl

@[simp] theorem results_cons (s : σ) (a : α) (as : List α) :
    M.results s (a :: as) = (M.step s a).1 :: M.results (M.step s a).2 as := rfl

@[simp] theorem log_nil (s : σ) : M.log s [] = [] := rfl

@[simp] theorem log_cons (s : σ) (a : α) (as : List α) :
    M.log s (a :: as) = (a, (M.step s a).1) :: M.log (M.step s a).2 as := rfl

/-- The log of a run in two parts. -/
theorem log_append (s : σ) (as bs : List α) :
    M.log s (as ++ bs) = M.log s as ++ M.log (M.run s as) bs := by
  simp [log, transitions_append]

/-- The log lists the actions of a run in order. -/
theorem map_fst_log (s : σ) (as : List α) : (M.log s as).map Prod.fst = as := by
  induction as generalizing s with
  | nil => rfl
  | cons a as ih => rw [log_cons, List.map_cons, ih]

/-- The log pairs the actions of a run with its results. -/
theorem zip_results (s : σ) (as : List α) : as.zip (M.results s as) = M.log s as := by
  induction as generalizing s with
  | nil => rfl
  | cons a as ih => rw [results_cons, log_cons, List.zip_cons_cons, ih]

/-- A transition of a run is the one made on some action of it, in the state the actions before
that one lead to. -/
theorem mem_transitions {s : σ} {as : List α} {t : Transition σ α ρ} :
    t ∈ M.transitions s as ↔
      ∃ before a after, as = before ++ a :: after ∧ t = M.transition (M.run s before) a := by
  constructor
  · intro ht
    induction as generalizing s with
    | nil => simp at ht
    | cons b as ih =>
        rw [transitions_cons, List.mem_cons] at ht
        rcases ht with rfl | ht
        · exact ⟨[], b, as, rfl, rfl⟩
        · obtain ⟨before, a, after, rfl, rfl⟩ := ih ht
          exact ⟨b :: before, a, after, rfl, rfl⟩
  · rintro ⟨before, a, after, rfl, rfl⟩
    simp [transitions_append]

/-- A state invariant that every step meeting `Ok` preserves holds throughout a run whose
transitions all meet `Ok`. -/
theorem invariant_of_step (Inv : σ → Prop) (Ok : Transition σ α ρ → Prop)
    (hstep : ∀ s a, Inv s → Ok (M.transition s a) → Inv (M.step s a).2)
    {s : σ} {as : List α} (hs : Inv s) (hok : ∀ t ∈ M.transitions s as, Ok t) :
    Inv (M.run s as) ∧ ∀ t ∈ M.transitions s as, Inv t.pre := by
  induction as generalizing s with
  | nil => exact ⟨hs, by simp⟩
  | cons a as ih =>
      rw [transitions_cons, List.forall_mem_cons] at hok
      obtain ⟨hrun, htrans⟩ := ih (hstep s a hs hok.1) hok.2
      refine ⟨hrun, ?_⟩
      rw [transitions_cons, List.forall_mem_cons]
      exact ⟨hs, htrans⟩

/-- A state invariant that every step preserves holds throughout every run. -/
theorem invariant_of_step' (Inv : σ → Prop) (hstep : ∀ s a, Inv s → Inv (M.step s a).2)
    {s : σ} (as : List α) (hs : Inv s) :
    Inv (M.run s as) ∧ ∀ t ∈ M.transitions s as, Inv t.pre :=
  M.invariant_of_step Inv (fun _ => True) (fun s a h _ => hstep s a h) hs fun _ _ => trivial

/-- The induction rule for an invariant between the log of a run and its state. -/
theorem log_invariant (Inv : List (α × ρ) → σ → Prop) {s : σ} (hnil : Inv [] s)
    (hstep : ∀ l s a, Inv l s → Inv (l ++ [(a, (M.step s a).1)]) (M.step s a).2)
    (as : List α) : Inv (M.log s as) (M.run s as) := by
  induction as using List.reverseRecOn with
  | nil => exact hnil
  | append_singleton as a ih =>
      rw [log_append, run_append]
      exact hstep _ _ a ih

/-- If a machine makes the steps of another one and answers with a function of the action and its
result, its runs are those of the other one, and its results the function on their logs. -/
theorem results_eq_map_log {ρ' : Type*} {M' : Mealy σ α ρ'} (f : α × ρ → ρ')
    (hstep : ∀ s a, M'.step s a = (f (a, (M.step s a).1), (M.step s a).2)) (s : σ) (as : List α) :
    M'.results s as = (M.log s as).map f ∧ M'.run s as = M.run s as := by
  induction as generalizing s with
  | nil => exact ⟨rfl, rfl⟩
  | cons a as ih =>
      obtain ⟨hresults, hrun⟩ := ih (M.step s a).2
      constructor
      · rw [results_cons, log_cons, List.map_cons, hstep, hresults]
      · rw [run_cons, run_cons, hstep, hrun]

section Simulation

variable {σ' ρ' : Type*} {M : Mealy σ α ρ} {M' : Mealy σ' α ρ'}

/-- If the steps of two machines in related states have results related by `f` and lead to related
states, so do their runs. -/
theorem results_of_simulation (S : σ → σ' → Prop) (f : ρ → ρ')
    (hstep : ∀ s s' a, S s s' →
      (M'.step s' a).1 = f (M.step s a).1 ∧ S (M.step s a).2 (M'.step s' a).2)
    {s : σ} {s' : σ'} (h : S s s') (as : List α) :
    M'.results s' as = (M.results s as).map f := by
  induction as generalizing s s' with
  | nil => rfl
  | cons a as ih =>
      obtain ⟨hresult, hnext⟩ := hstep s s' a h
      rw [results_cons, results_cons, List.map_cons, hresult, ih hnext]

end Simulation

section UpTo

variable {ρ' : Type*}

/-- The results up to the first one that satisfies `stop`, that one included. -/
def upTo (stop : ρ → Bool) : List ρ → List ρ
  | [] => []
  | r :: rs => r :: if stop r then [] else upTo stop rs

theorem mem_of_mem_upTo {stop : ρ → Bool} {rs : List ρ} {r : ρ} (h : r ∈ upTo stop rs) :
    r ∈ rs := by
  induction rs with
  | nil => exact h
  | cons r' rs ih =>
      rw [upTo, List.mem_cons] at h
      rcases h with rfl | h
      · exact List.mem_cons_self
      · split_ifs at h
        · cases h
        · exact List.mem_cons_of_mem _ (ih h)

/-- A test of mapped results is a test of the results. -/
theorem upTo_map (stop : ρ' → Bool) (f : ρ → ρ') (rs : List ρ) :
    upTo stop (rs.map f) = (upTo (stop ∘ f) rs).map f := by
  induction rs with
  | nil => rfl
  | cons r rs ih =>
      rw [List.map_cons, upTo, upTo, List.map_cons, Function.comp_apply]
      split_ifs
      · rfl
      · rw [ih]

/-- Stopping for one of two reasons is stopping for the second among the results up to the
first. -/
theorem upTo_or (stop stop' : ρ → Bool) (rs : List ρ) :
    upTo (fun r => stop r || stop' r) rs = upTo stop' (upTo stop rs) := by
  induction rs with
  | nil => rfl
  | cons r rs ih =>
      rw [upTo, upTo, upTo, ih]
      by_cases hstop : stop r = true
      · simp [hstop, upTo]
      · simp [hstop]

/-- Of the outputs of a run only the first is seen if it stops there. -/
theorem filterMap_upTo {β : Type*} (output : ρ → Option β) (rs : List ρ) :
    (upTo (fun r => (output r).isSome) rs).filterMap output = (rs.filterMap output).take 1 := by
  induction rs with
  | nil => rfl
  | cons r rs ih =>
      rw [upTo, List.filterMap_cons, List.filterMap_cons]
      cases output r with
      | none => simpa using ih
      | some b => simp

end UpTo

section Prunes

variable {β : Type*}

/-- `Prunes p l l'`: the list `l'` is `l` without some of its elements, all of which satisfy
`p`. -/
inductive Prunes (p : β → Prop) : List β → List β → Prop
  | nil : Prunes p [] []
  | keep (b : β) {l l' : List β} : Prunes p l l' → Prunes p (b :: l) (b :: l')
  | drop (b : β) {l l' : List β} : p b → Prunes p l l' → Prunes p (b :: l) l'

/-- If the machine stays where it is on every call satisfying `p`, deleting such calls from a run
leaves all other results as they were. -/
theorem log_of_prunes {p : α × ρ → Prop}
    (hp : ∀ s a, p (a, (M.step s a).1) → (M.step s a).2 = s)
    {s : σ} {as : List α} {l : List (α × ρ)} (h : Prunes p (M.log s as) l) :
    M.log s (l.map Prod.fst) = l := by
  induction as generalizing s l with
  | nil => cases h; rfl
  | cons a as ih =>
      rw [log_cons] at h
      cases h with
      | keep _ h => simp [ih h]
      | drop _ hrej h => rw [hp s a hrej] at h; exact ih h

end Prunes

end Mealy
