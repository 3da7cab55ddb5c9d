import Rclmine.Executor.Spin

/-!
# Runs of spins

`MyExecutor::spin` is called over and over on the same executor and reuses its wait set. This module
proves what every spin of every run dispatches, for an executor whose wait-set capacities are the
lengths of its lists.

The module introduces:

* `spinMachine R`: spins as a machine, with the environment of each spin as its input;
* `DispatchesReady`: a spin dispatches exactly the ready entities (`spins_dispatch_ready`);
* `CallsReady`: no callback runs for an entity that was not reported ready. It fails where
  `rcl_wait` returns an error code (`callsReady_iff`), because `spin` only tests for the timeout and
  the wait set then still holds the handles added before the wait.
-/

namespace Rclmine

open MyExecutor

variable {κ E : Type} {R : Rcl E} {ex : MyExecutor κ}

/-- Spins as a machine: an input is the environment of one spin. -/
def spinMachine (R : Rcl E) : Mealy (MyExecutor κ) E (SpinResult κ) where
  step ex e := spin R e ex

@[simp] theorem spinMachine_step (R : Rcl E) (ex : MyExecutor κ) (e : E) :
    (spinMachine R).step ex e = spin R e ex := rfl

/-! ### The arrays after the wait -/

/-- Whether a slot is not null. -/
def occupied (ws : WaitSet) (k : EntityKind) (i : ℕ) : Bool :=
  ((ws.slots k)[i]?.join).isSome

/-- Where the arrays are as long as the lists, the dispatch loops return normally. -/
theorem run_dispatchAll_occupied {ws : WaitSet} (hcap : ∀ k, (ex.pairs k).length ≤ ws.capacity k) :
    (ex.dispatchAll ws).run.run [] = (.ok (), readyCalls ex (occupied ws)) := by
  refine run_dispatchAll ex ws (occupied ws) fun k j hj => ?_
  have hlt : j < (ws.slots k).length := hj.trans_le (hcap k)
  simp [occupied, hlt]

/-- After `RCL_RET_OK` the dispatch loops invoke the callbacks of the ready entities. -/
theorem dispatchAll_answer_ok (hclear : R.ClearDocumented) (hadd : R.AddDocumented)
    (hwait : R.WaitDocumented) (hcap : CapacitiesMatch ex) {e : E}
    (hret : (R.waitSetClear e ex.waitSet).1 = .ok) (hok : (answer R e ex).1 = .ok) :
    (ex.dispatchAll (answer R e ex).2).run.run [] = (.ok (), readyCalls ex (R.ready e)) := by
  refine run_dispatchAll ex _ (R.ready e) fun k j hj => ?_
  rw [answer, hwait.ok _ _ _ hok, armed_slots hclear hadd hcap e hret, List.getElem?_mapIdx,
    List.getElem?_map, List.getElem?_eq_getElem hj]
  by_cases hready : R.ready e k j = true <;> simp [hready]

/-- After an error code they invoke every callback. -/
theorem dispatchAll_answer_failed (hclear : R.ClearDocumented) (hadd : R.AddDocumented)
    (hfailed : R.FailedWaitDocumented) (hcap : CapacitiesMatch ex) {e : E}
    (hret : (R.waitSetClear e ex.waitSet).1 = .ok) (hok : (answer R e ex).1 ≠ .ok)
    (htimeout : (answer R e ex).1 ≠ .timeout) :
    (ex.dispatchAll (answer R e ex).2).run.run [] = (.ok (), readyCalls ex fun _ _ => true) := by
  refine run_dispatchAll ex _ (fun _ _ => true) fun k j hj => ?_
  rw [answer, hfailed _ _ _ hok htimeout, armed_slots hclear hadd hcap e hret, List.getElem?_map,
    List.getElem?_eq_getElem hj]
  rfl

/-- The capacities keep matching the lists through a run. -/
theorem capacitiesMatch_spin (hclear : R.ClearDocumented) (hadd : R.AddDocumented)
    (hwait : R.WaitDocumented) (e : E) (hcap : CapacitiesMatch ex) :
    CapacitiesMatch (spin R e ex).2 := by
  intro k
  rw [capacity_spin hclear hadd hwait, pairs_spin]
  exact hcap k

/-- Spins leave the lists alone. -/
theorem pairs_run (R : Rcl E) (ex : MyExecutor κ) (es : List E) (k : EntityKind) :
    ((spinMachine R).run ex es).pairs k = ex.pairs k := by
  induction es generalizing ex with
  | nil => rfl
  | cons e es ih => rw [Mealy.run_cons, ih, spinMachine_step, pairs_spin]

/-- The callbacks to run depend on the executor through its lists only. -/
theorem readyCalls_congr {ex' : MyExecutor κ} (h : ∀ k, ex'.pairs k = ex.pairs k)
    (ready : EntityKind → ℕ → Bool) : readyCalls ex' ready = readyCalls ex ready := by
  have hsub : ex'.subscriptions = ex.subscriptions := h .subscription
  have hsrv : ex'.services = ex.services := h .service
  have hcli : ex'.clients = ex.clients := h .client
  rw [readyCalls, hsub, hsrv, hcli, readyCalls]

/-! ### Exactly the ready entities are dispatched -/

/-- What a spin of a run on `ex` does: it leaves the lists alone, reads no array out of range, goes
on to `rcl_wait` if the wait set could be cleared, invokes nothing after a timeout and exactly the
callbacks of the ready entities after `RCL_RET_OK`. -/
structure DispatchesReady (R : Rcl E) (ex : MyExecutor κ)
    (t : Mealy.Transition (MyExecutor κ) E (SpinResult κ)) : Prop where
  lists : ∀ k, t.post.pairs k = ex.pairs k
  inRange : ∀ k i, t.result.outcome ≠ .error (.outOfRange k i)
  waits : (R.waitSetClear t.action t.pre.waitSet).1 = .ok →
    t.result.waited = some (answer R t.action t.pre).1
  timeout : t.result.waited = some .timeout → t.result.outcome = .ok () ∧ t.result.calls = []
  ok : t.result.waited = some .ok →
    t.result.outcome = .ok () ∧ t.result.calls = readyCalls ex (R.ready t.action)

/-- The behaviour depends on the executor through its lists only. -/
theorem DispatchesReady.congr {ex' : MyExecutor κ}
    {t : Mealy.Transition (MyExecutor κ) E (SpinResult κ)} (h : DispatchesReady R ex' t)
    (hpairs : ∀ k, ex'.pairs k = ex.pairs k) : DispatchesReady R ex t where
  lists k := (h.lists k).trans (hpairs k)
  inRange := h.inRange
  waits := h.waits
  timeout := h.timeout
  ok hok := by
    rw [← readyCalls_congr hpairs]
    exact h.ok hok

/-- One spin dispatches exactly the ready entities. -/
theorem dispatchesReady_spin (hclear : R.ClearDocumented) (hadd : R.AddDocumented)
    (hwait : R.WaitDocumented) (hcap : CapacitiesMatch ex) (e : E) :
    DispatchesReady R ex ((spinMachine R).transition ex e) := by
  have hlists (k : EntityKind) : ((spinMachine R).transition ex e).post.pairs k = ex.pairs k := by
    simp
  obtain ⟨hret, h⟩ | ⟨hret, hans, h⟩ | ⟨hret, hans, h⟩ := spin_cases R e ex
  · exact ⟨hlists, by simp [h], by simp [hret], by simp [h], by simp [h]⟩
  · exact ⟨hlists, by simp [h], by simp [h, hans], by simp [h], by simp [h]⟩
  · -- any answer but the timeout: the arrays are still as long as the lists
    have hle (k : EntityKind) : (ex.pairs k).length ≤ (answer R e ex).2.capacity k := by
      rw [capacity_answer hclear hadd hwait, hcap k]
    refine ⟨hlists, by simp [h, run_dispatchAll_occupied hle], by simp [h], by simp [h, hans],
      fun hok => ?_⟩
    have hok : (answer R e ex).1 = .ok := by simpa [h] using hok
    simp [h, dispatchAll_answer_ok hclear hadd hwait hcap hret hok]

/-- Every spin of every run dispatches exactly the ready entities, and two spins in the same
environment that both timed out or both got `RCL_RET_OK` dispatch the same, whatever spins came
before them. -/
theorem spins_dispatch_ready (hclear : R.ClearDocumented) (hadd : R.AddDocumented)
    (hwait : R.WaitDocumented) (hcap : CapacitiesMatch ex) :
    (∀ es, ∀ t ∈ (spinMachine R).transitions ex es, DispatchesReady R ex t) ∧
      ∀ es es' e ret, ret = .timeout ∨ ret = .ok →
        (spin R e ((spinMachine R).run ex es)).1.waited = some ret →
        (spin R e ((spinMachine R).run ex es')).1.waited = some ret →
        (spin R e ((spinMachine R).run ex es)).1.calls =
          (spin R e ((spinMachine R).run ex es')).1.calls := by
  -- whatever spins came before, the executor has the same lists and matching capacities
  have hrun (es : List E) : CapacitiesMatch ((spinMachine R).run ex es) :=
    ((spinMachine R).invariant_of_step' CapacitiesMatch
      (fun _ e h => capacitiesMatch_spin hclear hadd hwait e h) es hcap).1
  have hspin (es : List E) (e : E) :
      DispatchesReady R ex ((spinMachine R).transition ((spinMachine R).run ex es) e) :=
    (dispatchesReady_spin hclear hadd hwait (hrun es) e).congr (pairs_run R ex es)
  refine ⟨fun es t ht => ?_, fun es es' e ret hret h h' => ?_⟩
  · obtain ⟨before, e, after, -, rfl⟩ := (spinMachine R).mem_transitions.1 ht
    exact hspin before e
  · rcases hret with rfl | rfl
    · exact ((hspin es e).timeout h).2.trans ((hspin es' e).timeout h').2.symm
    · exact ((hspin es e).ok h).2.trans ((hspin es' e).ok h').2.symm

/-- An executor with a subscription and two services, initialised for them. -/
def sampleExecutor : MyExecutor String where
  context := 0
  waitSet :=
    ⟨fun k => if k = .subscription then [none] else if k = .service then [none, none] else [],
      fun _ => 0, true⟩
  subscriptions := [⟨1, "topic"⟩]
  services := [⟨2, "get_parameters"⟩, ⟨3, "set_parameters"⟩]

theorem sampleExecutor_capacitiesMatch : CapacitiesMatch sampleExecutor := by
  intro k
  cases k <;> rfl

theorem spins_dispatch_ready_sample :
    (∀ es, ∀ t ∈ (spinMachine Rcl.reference).transitions sampleExecutor es,
        DispatchesReady Rcl.reference sampleExecutor t) ∧
      ∀ es es' e ret, ret = .timeout ∨ ret = .ok →
        (spin Rcl.reference e ((spinMachine Rcl.reference).run sampleExecutor es)).1.waited =
          some ret →
        (spin Rcl.reference e ((spinMachine Rcl.reference).run sampleExecutor es')).1.waited =
          some ret →
        (spin Rcl.reference e ((spinMachine Rcl.reference).run sampleExecutor es)).1.calls =
          (spin Rcl.reference e ((spinMachine Rcl.reference).run sampleExecutor es')).1.calls :=
  spins_dispatch_ready Rcl.reference_clearDocumented Rcl.reference_addDocumented
    Rcl.reference_waitDocumented sampleExecutor_capacitiesMatch

/-! ### No callback without readiness -/

/-- Every callback a spin invokes is that of an entity that `rcl_wait` returned `RCL_RET_OK` for and
reported ready. -/
def CallsReady (R : Rcl E) (t : Mealy.Transition (MyExecutor κ) E (SpinResult κ)) : Prop :=
  ∀ c ∈ t.result.calls, t.result.waited = some .ok ∧ R.ready t.action c.kind c.index = true ∧
    (t.pre.pairs c.kind)[c.index]? = some ⟨c.handle, c.callback⟩

/-- If `spin` gets to `rcl_wait`, it returns `RCL_RET_OK` or `RCL_RET_TIMEOUT`, or there is nothing
to dispatch. -/
def WaitsCleanly (R : Rcl E) (t : Mealy.Transition (MyExecutor κ) E (SpinResult κ)) : Prop :=
  (R.waitSetClear t.action t.pre.waitSet).1 = .ok →
    (answer R t.action t.pre).1 = .ok ∨ (answer R t.action t.pre).1 = .timeout ∨
      ∀ k, t.pre.pairs k = []

/-- If everything counts as ready, nothing is dispatched only if there is nothing. -/
theorem readyCalls_true_eq_nil (ex : MyExecutor κ) :
    readyCalls ex (fun _ _ => true) = [] ↔ ∀ k, ex.pairs k = [] := by
  constructor
  · intro h k
    rw [List.eq_nil_iff_forall_not_mem] at h ⊢
    intro pair hpair
    obtain ⟨i, hi⟩ := List.mem_iff_getElem?.1 hpair
    exact h ⟨k, i, pair.handle, pair.callback⟩ (mem_readyCalls.2 ⟨rfl, hi⟩)
  · intro h
    rw [List.eq_nil_iff_forall_not_mem]
    intro c hc
    have hget := (mem_readyCalls.1 hc).2
    rw [h c.kind, List.getElem?_nil] at hget
    cases hget

/-- One spin meets the law exactly where the wait is clean. -/
theorem callsReady_spin_iff (hclear : R.ClearDocumented) (hadd : R.AddDocumented)
    (hwait : R.WaitDocumented) (hfailed : R.FailedWaitDocumented) (hcap : CapacitiesMatch ex)
    (e : E) :
    CallsReady R ((spinMachine R).transition ex e) ↔
      WaitsCleanly R ((spinMachine R).transition ex e) := by
  obtain ⟨hret, h⟩ | ⟨hret, hans, h⟩ | ⟨hret, hans, h⟩ := spin_cases R e ex
  · simp [CallsReady, WaitsCleanly, h, hret]
  · simp [CallsReady, WaitsCleanly, h, hret, hans]
  · by_cases hok : (answer R e ex).1 = .ok
    · have hcalls := dispatchAll_answer_ok hclear hadd hwait hcap hret hok
      simp only [CallsReady, WaitsCleanly, Mealy.transition_result, Mealy.transition_action,
        Mealy.transition_pre, spinMachine_step, h, hcalls, hok, true_or, implies_true, iff_true]
      exact fun c hc => ⟨trivial, mem_readyCalls.1 hc⟩
    · -- an error code: every callback runs, so the law holds only where there is none
      have hcalls := dispatchAll_answer_failed hclear hadd hfailed hcap hret hok hans
      simp only [CallsReady, WaitsCleanly, Mealy.transition_result, Mealy.transition_action,
        Mealy.transition_pre, spinMachine_step, h, hcalls, hret, hok, hans, Option.some.injEq,
        false_and, imp_false, false_or, forall_const]
      rw [← List.eq_nil_iff_forall_not_mem, readyCalls_true_eq_nil]

/-- In a run of spins, no callback runs for an entity that was not reported ready if and only if
every `rcl_wait` of the run returns `RCL_RET_OK` or `RCL_RET_TIMEOUT`, or the executor has nothing
to dispatch. -/
theorem callsReady_iff (hclear : R.ClearDocumented) (hadd : R.AddDocumented)
    (hwait : R.WaitDocumented) (hfailed : R.FailedWaitDocumented) (hcap : CapacitiesMatch ex)
    (es : List E) :
    (∀ t ∈ (spinMachine R).transitions ex es, CallsReady R t) ↔
      ∀ t ∈ (spinMachine R).transitions ex es, WaitsCleanly R t := by
  refine forall₂_congr fun t ht => ?_
  -- every spin of the run starts in a state whose capacities match
  have hpre := ((spinMachine R).invariant_of_step' CapacitiesMatch
    (fun _ e h => capacitiesMatch_spin hclear hadd hwait e h) es hcap).2 t ht
  obtain ⟨before, e, after, -, rfl⟩ := (spinMachine R).mem_transitions.1 ht
  exact callsReady_spin_iff hclear hadd hwait hfailed hpre e

theorem callsReady_iff_sample :
    (∀ t ∈ (spinMachine Rcl.reference).transitions sampleExecutor [{}, { waitRet := .timeout }],
        CallsReady Rcl.reference t) ↔
      ∀ t ∈ (spinMachine Rcl.reference).transitions sampleExecutor [{}, { waitRet := .timeout }],
        WaitsCleanly Rcl.reference t :=
  callsReady_iff Rcl.reference_clearDocumented Rcl.reference_addDocumented
    Rcl.reference_waitDocumented Rcl.reference_failedWaitDocumented sampleExecutor_capacitiesMatch _

/-- A spin whose `rcl_wait` returns `RCL_RET_ERROR` invokes callbacks. -/
theorem not_callsReady_error :
    CapacitiesMatch sampleExecutor ∧
      ¬ ∀ t ∈ (spinMachine Rcl.reference).transitions sampleExecutor [{ waitRet := .error }],
        CallsReady Rcl.reference t := by
  refine ⟨sampleExecutor_capacitiesMatch, fun h => ?_⟩
  have hcalls := h _ (List.mem_singleton_self _) ⟨.subscription, 0, 1, "topic"⟩ (by decide)
  exact absurd hcalls.1 (by decide)

end Rclmine
