import Rclmine.Executor.Defs
import Rclmine.ToMathlib.Mealy

/-!
# What a spin dispatches

One call of `MyExecutor::spin` clears the wait set, fills it with the handles of the executor's
lists, waits, and walks over the lists a second time to invoke the callbacks whose slot is not null.
This module follows the positions through these steps.

The module introduces:

* `addAll R e added ws`: the wait set after the calls of `rcl_wait_set_add_*` on the handles
  `added`. What `spin` records of its calls is what it did to the wait set (`fill_eq`, `fill_all`);
* `Filled ws k done m`: the array of kind `k` holds the handles `done` and `m` free slots. The calls
  append handles (`addAll_filled`), so before the wait the arrays hold the handles of the executor's
  lists (`armed_slots`);
* `readyCalls ready`: the callbacks of the ready entities, subscriptions, services, clients, each
  kind in registration order;
* `Registered ex calls`: the calls are those of entities in the executor's lists, which holds of
  every spin, whatever `rcl` answers (`registered_spin`);
* `spin_cases`: everything a spin can do, from which the results about runs of spins follow.
-/

namespace Rclmine

open MyExecutor

variable {κ E : Type} {R : Rcl E}

/-! ### Filling the wait set -/

/-- The array of kind `k` is filled with `done` and has `m` free slots left. -/
structure Filled (ws : WaitSet) (k : EntityKind) (done : List Ptr) (m : ℕ) : Prop where
  slots : ws.slots k = done.map some ++ List.replicate m none
  index : ws.index k = done.length

/-- The capacity of an array is what it holds and what is left. -/
theorem Filled.capacity {ws : WaitSet} {k : EntityKind} {done : List Ptr} {m : ℕ}
    (h : Filled ws k done m) : ws.capacity k = done.length + m := by
  simp [WaitSet.capacity, h.slots]

/-- Storing a handle uses up a free slot. -/
theorem Filled.put {ws : WaitSet} {k : EntityKind} {done : List Ptr} {m : ℕ}
    (h : Filled ws k done (m + 1)) (handle : Ptr) :
    Filled (ws.put k handle) k (done ++ [handle]) m where
  slots := by
    rw [WaitSet.slots_put_self, h.slots, h.index, List.set_append_right _ _ (by simp)]
    simp [List.replicate_succ]
  index := by rw [WaitSet.index_put_self, h.index, List.length_append, List.length_singleton]

/-- Storing a handle of another kind changes nothing. -/
theorem Filled.put_of_ne {ws : WaitSet} {k k' : EntityKind} {done : List Ptr} {m : ℕ}
    (h : Filled ws k' done m) (handle : Ptr) (hne : k' ≠ k) :
    Filled (ws.put k handle) k' done m where
  slots := by rw [WaitSet.slots_put_of_ne ws handle hne, h.slots]
  index := by rw [WaitSet.index_put_of_ne ws handle hne, h.index]

/-- The calls of `rcl_wait_set_add_*` on the handles `added`, one after another. -/
def addAll (R : Rcl E) (e : E) (added : List (EntityKind × Ptr)) (ws : WaitSet) : WaitSet :=
  added.foldl (fun ws p => (R.waitSetAdd e p.1 ws p.2).2) ws

theorem addAll_append (R : Rcl E) (e : E) (added added' : List (EntityKind × Ptr)) (ws : WaitSet) :
    addAll R e (added ++ added') ws = addAll R e added' (addAll R e added ws) :=
  List.foldl_append

/-- The calls that put the handles of a list into the wait set. -/
def additions (k : EntityKind) (pairs : List (CallbackPair κ)) : List (EntityKind × Ptr) :=
  pairs.map fun pair => (k, pair.handle)

/-- A filling loop makes the calls for its list on the wait set, and records them. -/
theorem fill_eq (R : Rcl E) (e : E) (k : EntityKind) (pairs : List (CallbackPair κ))
    (filling : Filling) :
    fill R e k pairs filling =
      { waitSet := addAll R e (additions k pairs) filling.waitSet
        added := filling.added ++ additions k pairs } := by
  induction pairs generalizing filling with
  | nil => simp [fill, addAll, additions]
  | cons pair pairs ih =>
      rw [fill, ih]
      simp [Filling.add, addAll, additions]

/-- Calls for which there is enough room store all the handles, in order, and touch no other
kind. -/
theorem addAll_filled (hadd : R.AddDocumented) (e : E) (k : EntityKind)
    (pairs : List (CallbackPair κ)) {ws : WaitSet} {done : List Ptr} {m : ℕ}
    (hinit : ws.initialized = true) (h : Filled ws k done (pairs.length + m)) :
    (addAll R e (additions k pairs) ws).initialized = true ∧
      Filled (addAll R e (additions k pairs) ws) k (done ++ pairs.map CallbackPair.handle) m ∧
      ∀ k' done' m', k' ≠ k → Filled ws k' done' m' →
        Filled (addAll R e (additions k pairs) ws) k' done' m' := by
  induction pairs generalizing ws done with
  | nil => exact ⟨hinit, by simpa [addAll, additions] using h, fun _ _ _ _ h' => h'⟩
  | cons pair pairs ih =>
      have hroom : ws.index k < ws.capacity k := by
        rw [h.index, h.capacity, List.length_cons]
        omega
      -- there is room for the handle, so it goes to the insertion index
      have hput := hadd.ok e k ws pair.handle hinit hroom
      have hfilled : Filled ws k done ((pairs.length + m) + 1) := by
        rw [List.length_cons, Nat.add_right_comm] at h
        exact h
      obtain ⟨hinit', hself, hother⟩ :=
        ih (show (ws.put k pair.handle).initialized = true from hinit) (hfilled.put pair.handle)
      have hcons : addAll R e (additions k (pair :: pairs)) ws =
          addAll R e (additions k pairs) (ws.put k pair.handle) := by
        simp [addAll, additions, hput]
      rw [hcons]
      refine ⟨hinit', by simpa using hself, fun k' done' m' hne h' => ?_⟩
      exact hother k' done' m' hne (h'.put_of_ne pair.handle hne)

/-- The calls never change a capacity. -/
theorem capacity_addAll (hadd : R.AddDocumented) (e : E) (added : List (EntityKind × Ptr))
    (ws : WaitSet) (k : EntityKind) : (addAll R e added ws).capacity k = ws.capacity k := by
  induction added generalizing ws with
  | nil => rfl
  | cons p added ih =>
      rw [addAll, List.foldl_cons, ← addAll, ih, hadd.capacity]

/-- The calls of `rcl_wait_set_add_*` that `spin` makes once the wait set is cleared. -/
def toAdd (ex : MyExecutor κ) : List (EntityKind × Ptr) :=
  additions .subscription ex.subscriptions ++ additions .client ex.clients ++
    additions .service ex.services

/-- The wait set that `spin` passes to `rcl_wait`, from the cleared one. -/
def armed (R : Rcl E) (e : E) (ex : MyExecutor κ) (ws : WaitSet) : WaitSet :=
  addAll R e (toAdd ex) ws

/-- The three filling loops of `spin`. -/
theorem fill_all (R : Rcl E) (e : E) (ex : MyExecutor κ) (ws : WaitSet) :
    fill R e .service ex.services (fill R e .client ex.clients
        (fill R e .subscription ex.subscriptions { waitSet := ws })) =
      { waitSet := armed R e ex ws, added := toAdd ex } := by
  rw [fill_eq, fill_eq, fill_eq, armed, toAdd, addAll_append, addAll_append, List.nil_append]

/-- The capacities are the lengths of the executor's lists. -/
def CapacitiesMatch (ex : MyExecutor κ) : Prop :=
  ∀ k, ex.waitSet.capacity k = (ex.pairs k).length

variable {ex : MyExecutor κ}

/-- Arming a wait set does not change its capacities. -/
theorem capacity_armed (hadd : R.AddDocumented) (e : E) (ex : MyExecutor κ) (ws : WaitSet)
    (k : EntityKind) : (armed R e ex ws).capacity k = ws.capacity k := by
  rw [armed, capacity_addAll hadd]

/-- Before the wait each array holds the handles of the executor's list, position by position. -/
theorem armed_slots (hclear : R.ClearDocumented) (hadd : R.AddDocumented)
    (hcap : CapacitiesMatch ex) (e : E) (hret : (R.waitSetClear e ex.waitSet).1 = .ok)
    (k : EntityKind) :
    (armed R e ex (R.waitSetClear e ex.waitSet).2).slots k =
      (ex.pairs k).map fun pair => some pair.handle := by
  obtain ⟨hinit, hempty⟩ := hclear.ok e ex.waitSet hret
  have hcleared (k : EntityKind) :
      Filled (R.waitSetClear e ex.waitSet).2 k [] ((ex.pairs k).length + 0) := by
    refine ⟨?_, (hempty k).2⟩
    rw [(hempty k).1, hcap k, List.map_nil, List.nil_append, Nat.add_zero]
  -- the three loops, each framed over by the other two
  obtain ⟨hinit, hsub, hframe₁⟩ :=
    addAll_filled hadd e .subscription ex.subscriptions hinit (hcleared .subscription)
  obtain ⟨hinit, hcli, hframe₂⟩ := addAll_filled hadd e .client ex.clients hinit
    (hframe₁ _ _ _ (by decide) (hcleared .client))
  obtain ⟨-, hsrv, hframe₃⟩ := addAll_filled hadd e .service ex.services hinit
    (hframe₂ _ _ _ (by decide) (hframe₁ _ _ _ (by decide) (hcleared .service)))
  have hall : Filled (armed R e ex (R.waitSetClear e ex.waitSet).2) k
      ((ex.pairs k).map CallbackPair.handle) 0 := by
    rw [armed, toAdd, addAll_append, addAll_append]
    cases k with
    | subscription => exact hframe₃ _ _ _ (by decide) (hframe₂ _ _ _ (by decide) hsub)
    | client => exact hframe₃ _ _ _ (by decide) hcli
    | service => exact hsrv
  rw [hall.slots, List.map_map, List.replicate_zero, List.append_nil]
  rfl

/-! ### Dispatching -/

/-- The callbacks of one kind whose position is ready, from position `i` on. -/
def readyCallsFrom (k : EntityKind) (ready : ℕ → Bool) (pairs : List (CallbackPair κ)) (i : ℕ) :
    List (Dispatch κ) :=
  ((pairs.zipIdx i).filter fun p => ready p.2).map fun p => ⟨k, p.2, p.1.handle, p.1.callback⟩

/-- The callbacks of the ready entities: subscriptions, then services, then clients, each kind in
registration order. -/
def readyCalls (ex : MyExecutor κ) (ready : EntityKind → ℕ → Bool) : List (Dispatch κ) :=
  readyCallsFrom .subscription (ready .subscription) ex.subscriptions 0 ++
    readyCallsFrom .service (ready .service) ex.services 0 ++
    readyCallsFrom .client (ready .client) ex.clients 0

/-- The callbacks of one kind that are invoked: those registered at a ready position. -/
theorem mem_readyCallsFrom {k : EntityKind} {ready : ℕ → Bool} {pairs : List (CallbackPair κ)}
    {c : Dispatch κ} :
    c ∈ readyCallsFrom k ready pairs 0 ↔
      c.kind = k ∧ ready c.index = true ∧ pairs[c.index]? = some ⟨c.handle, c.callback⟩ := by
  simp only [readyCallsFrom, List.mem_map, List.mem_filter, Prod.exists,
    List.mem_zipIdx_iff_getElem?]
  constructor
  · rintro ⟨pair, i, ⟨hpair, hready⟩, rfl⟩
    exact ⟨rfl, hready, hpair⟩
  · rintro ⟨rfl, hready, hpair⟩
    exact ⟨_, _, ⟨hpair, hready⟩, rfl⟩

/-- A dispatched callback is the one registered at its position, and that position is ready. -/
theorem mem_readyCalls {ready : EntityKind → ℕ → Bool} {c : Dispatch κ} :
    c ∈ readyCalls ex ready ↔
      ready c.kind c.index = true ∧ (ex.pairs c.kind)[c.index]? = some ⟨c.handle, c.callback⟩ := by
  simp only [readyCalls, List.mem_append, mem_readyCallsFrom]
  obtain ⟨k, i, handle, callback⟩ := c
  cases k <;> simp [pairs]

/-- One iteration of the dispatch loop. -/
theorem run_dispatch_cons (k : EntityKind) (slots : List (Option Ptr)) (pair : CallbackPair κ)
    (pairs : List (CallbackPair κ)) (i : ℕ) (calls : List (Dispatch κ)) :
    (dispatch k slots (pair :: pairs) i).run.run calls =
      match slots[i]? with
      | none => (.error (.outOfRange k i), calls)
      | some none => (dispatch k slots pairs (i + 1)).run.run calls
      | some (some _) => (dispatch k slots pairs (i + 1)).run.run
          (calls ++ [⟨k, i, pair.handle, pair.callback⟩]) := by
  rw [dispatch]
  match slots[i]? with
  | none => rfl
  | some none => rfl
  | some (some _) => rfl

/-- The callback at the first position, if it is ready, and those after it. -/
theorem readyCallsFrom_cons (k : EntityKind) (ready : ℕ → Bool) (pair : CallbackPair κ)
    (pairs : List (CallbackPair κ)) (i : ℕ) :
    readyCallsFrom k ready (pair :: pairs) i =
      (if ready i then [⟨k, i, pair.handle, pair.callback⟩] else []) ++
        readyCallsFrom k ready pairs (i + 1) := by
  by_cases h : ready i = true <;> simp [readyCallsFrom, h]

/-- The dispatch loop invokes exactly the callbacks at the positions whose slot is not null. -/
theorem run_dispatch (k : EntityKind) (slots : List (Option Ptr)) (ready : ℕ → Bool)
    (pairs : List (CallbackPair κ)) (i : ℕ) (calls : List (Dispatch κ))
    (h : ∀ j, i ≤ j → j < i + pairs.length → slots[j]?.map Option.isSome = some (ready j)) :
    (dispatch k slots pairs i).run.run calls =
      (.ok (), calls ++ readyCallsFrom k ready pairs i) := by
  induction pairs generalizing i calls with
  | nil =>
      rw [readyCallsFrom, List.zipIdx_nil, List.filter_nil, List.map_nil, List.append_nil]
      rfl
  | cons pair pairs ih =>
      have hhead := h i le_rfl (by simp)
      have htail (calls : List (Dispatch κ)) := ih (i + 1) calls fun j hj hlt =>
        h j (by omega) (by rw [List.length_cons]; omega)
      rw [run_dispatch_cons, readyCallsFrom_cons]
      match hslot : slots[i]? with
      -- the array is long enough
      | none => simp [hslot] at hhead
      | some none =>
          rw [hslot] at hhead
          have hready : ready i = false := (Option.some.inj hhead).symm
          simp [htail, hready]
      | some (some p) =>
          rw [hslot] at hhead
          have hready : ready i = true := (Option.some.inj hhead).symm
          simp [htail, hready]

/-- A computation after one that returned normally starts where that one stopped. -/
theorem run_bind_of_ok {ε σ α : Type} {x : ExceptT ε (StateM σ) Unit}
    {y : ExceptT ε (StateM σ) α} {s s' : σ} (h : x.run.run s = (.ok (), s')) :
    (x >>= fun _ => y).run.run s = y.run.run s' := by
  rw [ExceptT.run_bind, StateT.run_bind, h]
  rfl

/-- A computation after one that threw does not run. -/
theorem run_bind_of_error {ε σ α : Type} {x : ExceptT ε (StateM σ) Unit}
    {y : ExceptT ε (StateM σ) α} {s s' : σ} {err : ε} (h : x.run.run s = (.error err, s')) :
    (x >>= fun _ => y).run.run s = (.error err, s') := by
  rw [ExceptT.run_bind, StateT.run_bind, h]
  rfl

/-- Walking over arrays whose slots show readiness invokes exactly the ready callbacks. -/
theorem run_dispatchAll (ex : MyExecutor κ) (ws : WaitSet) (ready : EntityKind → ℕ → Bool)
    (h : ∀ k j, j < (ex.pairs k).length →
      (ws.slots k)[j]?.map Option.isSome = some (ready k j)) :
    (ex.dispatchAll ws).run.run [] = (.ok (), readyCalls ex ready) := by
  have hloop (k : EntityKind) (calls : List (Dispatch κ)) :
      (dispatch k (ws.slots k) (ex.pairs k) 0).run.run calls =
        (.ok (), calls ++ readyCallsFrom k (ready k) (ex.pairs k) 0) :=
    run_dispatch k (ws.slots k) (ready k) (ex.pairs k) 0 calls fun j _ hlt =>
      h k j (by rwa [Nat.zero_add] at hlt)
  -- each loop starts with the calls of those before it
  have hsub := hloop .subscription []
  have hsrv := hloop .service
  have hcli := hloop .client
  rw [List.nil_append] at hsub
  rw [dispatchAll]
  exact (run_bind_of_ok hsub).trans ((run_bind_of_ok (hsrv _)).trans (hcli _))

/-- The calls are those of registered entities, each at the callback it was registered with. -/
def Registered (ex : MyExecutor κ) (calls : List (Dispatch κ)) : Prop :=
  ∀ c ∈ calls, ⟨c.handle, c.callback⟩ ∈ ex.pairs c.kind

/-- Whatever the slots are, a dispatch loop invokes callbacks of its own list only. -/
theorem registered_dispatch (k : EntityKind) (slots : List (Option Ptr))
    {pairs : List (CallbackPair κ)} (hpairs : ∀ pair ∈ pairs, pair ∈ ex.pairs k) (i : ℕ)
    {calls : List (Dispatch κ)} (h : Registered ex calls) :
    Registered ex ((dispatch k slots pairs i).run.run calls).2 := by
  induction pairs generalizing i calls with
  | nil => exact h
  | cons pair pairs ih =>
      rw [List.forall_mem_cons] at hpairs
      rw [run_dispatch_cons]
      match slots[i]? with
      | none => exact h
      | some none => exact ih hpairs.2 (i + 1) h
      | some (some _) =>
          refine ih hpairs.2 (i + 1) fun c hc => ?_
          rw [List.mem_append, List.mem_singleton] at hc
          rcases hc with hc | rfl
          · exact h c hc
          · exact hpairs.1

/-- If two computations invoke callbacks of registered entities only, so does their sequence. -/
theorem registered_bind {x y : ExceptT Failure (StateM (List (Dispatch κ))) Unit}
    (hx : ∀ calls, Registered ex calls → Registered ex (x.run.run calls).2)
    (hy : ∀ calls, Registered ex calls → Registered ex (y.run.run calls).2)
    (calls : List (Dispatch κ)) (h : Registered ex calls) :
    Registered ex ((x >>= fun _ => y).run.run calls).2 := by
  match hrun : x.run.run calls with
  | (.ok (), calls') =>
      rw [run_bind_of_ok hrun]
      exact hy calls' (by simpa [hrun] using hx calls h)
  | (.error failure, calls') =>
      -- the second computation does not run
      rw [run_bind_of_error hrun]
      simpa [hrun] using hx calls h

/-- Whatever the wait set is, walking over it invokes callbacks of registered entities only. -/
theorem registered_dispatchAll (ex : MyExecutor κ) (ws : WaitSet) :
    Registered ex ((ex.dispatchAll ws).run.run []).2 := by
  have hloop (k : EntityKind) (calls : List (Dispatch κ)) (h : Registered ex calls) :
      Registered ex ((dispatch k (ws.slots k) (ex.pairs k) 0).run.run calls).2 :=
    registered_dispatch k _ (fun _ hpair => hpair) 0 h
  rw [dispatchAll]
  exact registered_bind (hloop .subscription)
    (registered_bind (hloop .service) (hloop .client)) [] (by simp [Registered])

/-! ### Everything a spin can do -/

/-- What `rcl_wait` answers in a spin. -/
def answer (R : Rcl E) (e : E) (ex : MyExecutor κ) : RclRet × WaitSet :=
  R.wait e (armed R e ex (R.waitSetClear e ex.waitSet).2) spinTimeout

/-- A spin either fails to clear the wait set, or times out, or walks over the arrays `rcl_wait`
left. -/
theorem spin_cases (R : Rcl E) (e : E) (ex : MyExecutor κ) :
    ((R.waitSetClear e ex.waitSet).1 ≠ .ok ∧
        spin R e ex = ({ outcome := .error (.threw "Failed to clear wait set") },
          { ex with waitSet := (R.waitSetClear e ex.waitSet).2 })) ∨
      ((R.waitSetClear e ex.waitSet).1 = .ok ∧ (answer R e ex).1 = .timeout ∧
        spin R e ex = ({ outcome := .ok (), added := toAdd ex, waited := some .timeout },
          { ex with waitSet := (answer R e ex).2 })) ∨
      ((R.waitSetClear e ex.waitSet).1 = .ok ∧ (answer R e ex).1 ≠ .timeout ∧
        spin R e ex =
          ({ outcome := ((ex.dispatchAll (answer R e ex).2).run.run []).1
             added := toAdd ex
             waited := some (answer R e ex).1
             calls := ((ex.dispatchAll (answer R e ex).2).run.run []).2 },
            { ex with waitSet := (answer R e ex).2 })) := by
  have hspin : spin R e ex =
      if (R.waitSetClear e ex.waitSet).1 ≠ .ok then
        ({ outcome := .error (.threw "Failed to clear wait set") },
          { ex with waitSet := (R.waitSetClear e ex.waitSet).2 })
      else if (answer R e ex).1 = .timeout then
        ({ outcome := .ok (), added := toAdd ex, waited := some (answer R e ex).1 },
          { ex with waitSet := (answer R e ex).2 })
      else
        ({ outcome := ((ex.dispatchAll (answer R e ex).2).run.run []).1
           added := toAdd ex
           waited := some (answer R e ex).1
           calls := ((ex.dispatchAll (answer R e ex).2).run.run []).2 },
          { ex with waitSet := (answer R e ex).2 }) := by
    simp only [spin, fill_all]
    rfl
  rw [hspin]
  -- the two tests of return codes in the source
  by_cases hclear : (R.waitSetClear e ex.waitSet).1 = .ok
  · by_cases hwait : (answer R e ex).1 = .timeout
    · exact Or.inr (Or.inl ⟨hclear, hwait, by simp [hclear, hwait]⟩)
    · exact Or.inr (Or.inr ⟨hclear, hwait, by simp [hclear, hwait]⟩)
  · exact Or.inl ⟨hclear, by simp [hclear]⟩

/-- Whatever `rcl` does, a spin invokes callbacks of registered entities only. -/
theorem registered_spin (R : Rcl E) (e : E) (ex : MyExecutor κ) :
    Registered ex (spin R e ex).1.calls := by
  obtain ⟨-, h⟩ | ⟨-, -, h⟩ | ⟨-, -, h⟩ := spin_cases R e ex <;> rw [h]
  · simp [Registered]
  · simp [Registered]
  · exact registered_dispatchAll ex _

/-- A spin never changes the executor's lists. -/
@[simp] theorem pairs_spin (R : Rcl E) (e : E) (ex : MyExecutor κ) (k : EntityKind) :
    (spin R e ex).2.pairs k = ex.pairs k := by
  obtain ⟨-, h⟩ | ⟨-, -, h⟩ | ⟨-, -, h⟩ := spin_cases R e ex <;> rw [h] <;> cases k <;> rfl

/-- `rcl_wait` gets and leaves arrays of the executor's capacities. -/
theorem capacity_answer (hclear : R.ClearDocumented) (hadd : R.AddDocumented)
    (hwait : R.WaitDocumented) (e : E) (ex : MyExecutor κ) (k : EntityKind) :
    (answer R e ex).2.capacity k = ex.waitSet.capacity k := by
  rw [answer, hwait.capacity, capacity_armed hadd, hclear.capacity]

/-- A spin never changes the capacities of the wait set. -/
theorem capacity_spin (hclear : R.ClearDocumented) (hadd : R.AddDocumented)
    (hwait : R.WaitDocumented) (e : E) (ex : MyExecutor κ) (k : EntityKind) :
    (spin R e ex).2.waitSet.capacity k = ex.waitSet.capacity k := by
  obtain ⟨-, h⟩ | ⟨-, -, h⟩ | ⟨-, -, h⟩ := spin_cases R e ex <;> rw [h]
  · exact hclear.capacity e ex.waitSet k
  · exact capacity_answer hclear hadd hwait e ex k
  · exact capacity_answer hclear hadd hwait e ex k

end Rclmine
