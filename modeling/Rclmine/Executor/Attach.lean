import Rclmine.Executor.Runs

/-!
# Attaching nodes

`MyExecutor::addMyNode` extends the three lists and then initialises the wait set for their new
lengths. It never finalises or resizes a wait set, so on an executor that was already initialised
the call of `rcl_wait_set_init` fails after the lists were extended.

The module introduces:

* `executorMachine R`: attachments and spins, in any order, as a machine. The callbacks it invokes
  are those of the attached nodes (`dispatched_of_attached`);
* `ServesAll`: every attachment returned and the lists and capacities are those of all the nodes,
  which happens for at most one node (`servesAll_iff`);
* `AttachAtomic`: failed attachments have no effect on any state or spin of a run. This holds
  exactly of the runs in which every attachment of a node with entities succeeds
  (`attachAtomic_iff`), and an attachment succeeds only on a wait set that is not initialised
  (`uninitialized_of_attached`).
-/

namespace Rclmine

open MyExecutor

variable {κ E : Type} {R : Rcl E} {ex : MyExecutor κ}

/-- A call of a method of the executor, with what the environment decides during it. -/
inductive ExecutorCall (κ E : Type)
  | addMyNode (e : E) (node : MyNode κ)
  | spin (e : E)

/-- How a call of a method of the executor ended. -/
inductive ExecutorResult (κ : Type)
  | attached (outcome : Except Failure Unit)
  | spun (result : SpinResult κ)

/-- The executor under calls in any order; the caller catches what they throw. -/
def executorMachine (R : Rcl E) : Mealy (MyExecutor κ) (ExecutorCall κ E) (ExecutorResult κ) where
  step ex
    | .addMyNode e node => let (outcome, ex) := addMyNode R e node ex; (.attached outcome, ex)
    | .spin e => let (result, ex) := spin R e ex; (.spun result, ex)

@[simp] theorem executorMachine_addMyNode (R : Rcl E) (ex : MyExecutor κ) (e : E)
    (node : MyNode κ) : (executorMachine R).step ex (.addMyNode e node) =
      (.attached (addMyNode R e node ex).1, (addMyNode R e node ex).2) := rfl

@[simp] theorem executorMachine_spin (R : Rcl E) (ex : MyExecutor κ) (e : E) :
    (executorMachine R).step ex (.spin e) = (.spun (spin R e ex).1, (spin R e ex).2) := rfl

/-! ### What an attachment does -/

@[simp] theorem sizes_of (ex : MyExecutor κ) (k : EntityKind) :
    ex.sizes.of k = (ex.pairs k).length := by
  cases k <;> rfl

/-- The lists are extended by the node's lists, whichever of them are empty. -/
@[simp] theorem pairs_extendLists (ex : MyExecutor κ) (node : MyNode κ) (k : EntityKind) :
    (ex.extendLists node).pairs k = ex.pairs k ++ node.pairs k := by
  unfold extendLists
  -- the source skips an empty list, which is the same as appending it
  rcases hsub : node.getSubscriptions with _ | ⟨_, _⟩ <;>
    rcases hcli : node.getClients with _ | ⟨_, _⟩ <;>
      rcases hsrv : node.getServices with _ | ⟨_, _⟩ <;>
        cases k <;> simp [pairs, MyNode.pairs, addSubscriptions, addClients, addServices, *]

@[simp] theorem waitSet_extendLists (ex : MyExecutor κ) (node : MyNode κ) :
    (ex.extendLists node).waitSet = ex.waitSet := by
  unfold extendLists addSubscriptions addClients addServices
  split_ifs <;> rfl

/-- What `rcl_wait_set_init` answers in an attachment. -/
def initAnswer (R : Rcl E) (e : E) (node : MyNode κ) (ex : MyExecutor κ) : RclRet × WaitSet :=
  R.waitSetInit e ex.waitSet (ex.extendLists node).sizes (ex.extendLists node).context

/-- The outcome of an attachment is decided by `rcl_wait_set_init` alone; the lists are extended
and the wait set is what it left in every case. -/
theorem addMyNode_eq (R : Rcl E) (e : E) (node : MyNode κ) (ex : MyExecutor κ) :
    addMyNode R e node ex =
      (if (initAnswer R e node ex).1 = .ok then .ok ()
        else .error (.threw "Failed to initialize wait set"),
        { ex.extendLists node with waitSet := (initAnswer R e node ex).2 }) := by
  by_cases h : (initAnswer R e node ex).1 = .ok <;>
    simp [addMyNode, initAnswer] at h ⊢ <;> simp [h]

@[simp] theorem pairs_addMyNode (R : Rcl E) (e : E) (node : MyNode κ) (ex : MyExecutor κ)
    (k : EntityKind) : (addMyNode R e node ex).2.pairs k = ex.pairs k ++ node.pairs k := by
  rw [addMyNode_eq, ← pairs_extendLists]
  cases k <;> rfl

@[simp] theorem waitSet_addMyNode (R : Rcl E) (e : E) (node : MyNode κ) (ex : MyExecutor κ) :
    (addMyNode R e node ex).2.waitSet = (initAnswer R e node ex).2 := by
  rw [addMyNode_eq]

@[simp] theorem addMyNode_ok_iff (R : Rcl E) (e : E) (node : MyNode κ) (ex : MyExecutor κ) :
    (addMyNode R e node ex).1 = .ok () ↔ (initAnswer R e node ex).1 = .ok := by
  by_cases h : (initAnswer R e node ex).1 = .ok <;> simp [addMyNode_eq, h]

/-- On an initialised wait set every attachment gets `RCL_RET_ALREADY_INIT`. -/
theorem initAnswer_already (hinit : R.InitDocumented) (e : E) (node : MyNode κ)
    (h : ex.waitSet.initialized = true) : initAnswer R e node ex = (.alreadyInit, ex.waitSet) :=
  hinit.already e ex.waitSet _ _ h

/-- So an attachment succeeds only on a wait set that is not initialised yet. -/
theorem uninitialized_of_attached (hinit : R.InitDocumented) {e : E} {node : MyNode κ}
    (h : (addMyNode R e node ex).1 = .ok ()) : ex.waitSet.initialized = false := by
  by_contra hne
  rw [addMyNode_ok_iff, initAnswer_already hinit e node (by simpa using hne)] at h
  cases h

/-- After a successful attachment the wait set is initialised for the extended lists. -/
theorem waitSet_of_attached (hinit : R.InitDocumented) {e : E} {node : MyNode κ}
    (h : (addMyNode R e node ex).1 = .ok ()) :
    (addMyNode R e node ex).2.waitSet.initialized = true ∧
      CapacitiesMatch (addMyNode R e node ex).2 := by
  have huninit := uninitialized_of_attached hinit h
  rw [addMyNode_ok_iff] at h
  -- the sizes passed are the lengths of the extended lists
  obtain ⟨hdone, hcap⟩ := hinit.ok e ex.waitSet _ _ huninit h
  refine ⟨by rw [waitSet_addMyNode]; exact hdone, fun k => ?_⟩
  rw [waitSet_addMyNode, pairs_addMyNode, ← pairs_extendLists, ← sizes_of]
  exact hcap k

/-- A fresh executor has no entities. -/
theorem pairs_construct (context : Ptr) (k : EntityKind) :
    (construct context : MyExecutor κ).pairs k = [] := by
  cases k <;> rfl

/-- Every callback in the lists has the property `P`. -/
def AllCallbacks (P : κ → Prop) (pairs : EntityKind → List (CallbackPair κ)) : Prop :=
  ∀ k, ∀ pair ∈ pairs k, P pair.callback

/-- A call registers no callback without the property `P`, if the node it attaches has none. -/
theorem allCallbacks_step (R : Rcl E) {P : κ → Prop} (ex : MyExecutor κ)
    (call : ExecutorCall κ E) (hex : AllCallbacks P ex.pairs)
    (hcall : ∀ e node, call = .addMyNode e node → AllCallbacks P node.pairs) :
    AllCallbacks P ((executorMachine R).step ex call).2.pairs := by
  intro k pair hpair
  cases call with
  | addMyNode e node =>
      rw [executorMachine_addMyNode, pairs_addMyNode, List.mem_append] at hpair
      rcases hpair with hpair | hpair
      · exact hex k pair hpair
      · exact hcall e node rfl k pair hpair
  | spin e =>
      rw [executorMachine_spin, pairs_spin] at hpair
      exact hex k pair hpair

/-- Whatever `rcl` does, the callbacks invoked in a run from a fresh executor are those of the nodes
attached in it. -/
theorem dispatched_of_attached (R : Rcl E) {P : κ → Prop} {context : Ptr}
    {calls : List (ExecutorCall κ E)}
    (hnodes : ∀ e node, .addMyNode e node ∈ calls → AllCallbacks P node.pairs) :
    ∀ t ∈ (executorMachine R).transitions (construct context) calls, ∀ result,
      t.result = .spun result → ∀ c ∈ result.calls, P c.callback := by
  have hfresh : AllCallbacks P (construct context : MyExecutor κ).pairs := by
    simp [AllCallbacks, pairs_construct]
  have hcalls : ∀ t ∈ (executorMachine R).transitions (construct context) calls,
      ∀ e node, t.action = .addMyNode e node → AllCallbacks P node.pairs := by
    intro t ht e node haction
    obtain ⟨before, call, after, rfl, rfl⟩ := (executorMachine R).mem_transitions.1 ht
    obtain rfl : call = .addMyNode e node := haction
    exact hnodes e node (by simp)
  have hpre := ((executorMachine R).invariant_of_step (fun ex => AllCallbacks P ex.pairs) _
    (allCallbacks_step R) hfresh hcalls).2
  intro t ht result hresult c hc
  have hex := hpre t ht
  obtain ⟨before, call, after, -, rfl⟩ := (executorMachine R).mem_transitions.1 ht
  cases call with
  | addMyNode e node => cases hresult
  | spin e =>
      cases hresult
      exact hex c.kind _ (registered_spin R e _ c hc)

/-! ### Attaching every node of a list -/

/-- The calls that attach the nodes of a list, in order. -/
def attachments (nodes : List (E × MyNode κ)) : List (ExecutorCall κ E) :=
  nodes.map fun p => .addMyNode p.1 p.2

/-- The executor serves all the nodes: every attachment returned normally, the lists are the nodes'
lists one after another and the capacities are their lengths. -/
structure ServesAll (R : Rcl E) (context : Ptr) (nodes : List (E × MyNode κ)) : Prop where
  returned : ∀ r ∈ (executorMachine R).results (construct context) (attachments nodes),
    r = .attached (.ok ())
  lists : ∀ k, ((executorMachine R).run (construct context) (attachments nodes)).pairs k =
    nodes.flatMap fun p => p.2.pairs k
  capacities : CapacitiesMatch
    ((executorMachine R).run (construct context) (attachments nodes))

/-- `rcl_wait_set_init` succeeds on every wait set that is not initialised. -/
def Rcl.InitSucceeds (R : Rcl E) : Prop :=
  ∀ e ws n ctx, ws.initialized = false → (R.waitSetInit e ws n ctx).1 = .ok

theorem capacitiesMatch_construct (context : Ptr) :
    CapacitiesMatch (construct context : MyExecutor κ) := by
  intro k
  rw [pairs_construct]
  rfl

/-- The executor serves all the nodes of a list exactly if there is at most one: the second
attachment initialises the wait set again. -/
theorem servesAll_iff (hinit : R.InitDocumented) (hsucceeds : R.InitSucceeds) (context : Ptr)
    (nodes : List (E × MyNode κ)) : ServesAll R context nodes ↔ nodes.length ≤ 1 := by
  match nodes with
  | [] =>
      exact iff_of_true ⟨by simp [attachments], by simp [attachments, pairs_construct],
        capacitiesMatch_construct context⟩ (by simp)
  | [(e, node)] =>
      have hok : (addMyNode R e node (construct context)).1 = .ok () :=
        (addMyNode_ok_iff R e node _).2 (hsucceeds e _ _ _ rfl)
      refine iff_of_true ⟨?_, ?_, ?_⟩ (by simp)
      · simp [attachments, hok]
      · simp [attachments, pairs_construct]
      · exact (waitSet_of_attached hinit hok).2
  | (e, node) :: (e', node') :: nodes =>
      refine iff_of_false (fun h => ?_) (by simp)
      have hreturned := h.returned
      simp only [attachments, List.map_cons, Mealy.results_cons, executorMachine_addMyNode,
        List.forall_mem_cons, ExecutorResult.attached.injEq] at hreturned
      obtain ⟨hfirst, hsecond, -⟩ := hreturned
      -- the first attachment initialised the wait set, so the second one cannot succeed
      have hdone := (waitSet_of_attached hinit hfirst).1
      rw [addMyNode_ok_iff, initAnswer_already hinit e' node' hdone] at hsecond
      cases hsecond

/-- A node on which one service was created. -/
def serviceNode (nodeHandle : Ptr) (serviceName : String) (handle : Ptr) : MyNode String :=
  ((MyNode.createService serviceName serviceName { handle }).run.run { nodeHandle }).2

theorem reference_initSucceeds_of_ok {e : Environment} (h : e.initRet = .ok) (ws : WaitSet)
    (n : WaitSetSizes) (ctx : Ptr) (hws : ws.initialized = false) :
    (Rcl.reference.waitSetInit e ws n ctx).1 = .ok := by
  simp [Rcl.reference, hws, h]

/-- The wait-set functions where no initialisation of an uninitialised wait set fails. -/
def Rcl.obliging : Rcl Unit where
  waitSetInit _ := Rcl.reference.waitSetInit {}
  waitSetClear _ := Rcl.reference.waitSetClear {}
  waitSetAdd _ := Rcl.reference.waitSetAdd {}
  wait _ := Rcl.reference.wait {}
  ready _ := Rcl.reference.ready {}

theorem obliging_initDocumented : Rcl.obliging.InitDocumented where
  already _ := Rcl.reference_initDocumented.already {}
  ok _ := Rcl.reference_initDocumented.ok {}

theorem obliging_initSucceeds : Rcl.obliging.InitSucceeds :=
  fun _ => reference_initSucceeds_of_ok rfl

theorem servesAll_iff_one :
    ServesAll Rcl.obliging 0 [((), serviceNode 10 "add_two_ints" 1)] ↔
      [((), serviceNode 10 "add_two_ints" 1)].length ≤ 1 :=
  servesAll_iff obliging_initDocumented obliging_initSucceeds 0 _

/-- Attaching a second node throws. -/
theorem not_servesAll_two :
    ¬ ServesAll Rcl.obliging 0
      [((), serviceNode 10 "add_two_ints" 1), ((), serviceNode 11 "add_three_ints" 2)] := by
  intro h
  have hsecond := h.returned
    (.attached (.error (.threw "Failed to initialize wait set"))) (by simp [attachments]; decide)
  cases hsecond

/-! ### Failed attachments -/

/-- The nodes whose attachment returned normally, in order. -/
def attachedNodes (log : List (ExecutorCall κ E × ExecutorResult κ)) : List (MyNode κ) :=
  log.filterMap fun
    | (.addMyNode _ node, .attached (.ok ())) => some node
    | _ => none

/-- A failed attachment leaves the executor as it was, in every state of the run `calls` from a
fresh executor: the lists are those from before the call, so they are the lists of the nodes whose
attachment returned; every index of a later spin is below the capacity; a retry registers no entity
twice. -/
structure AttachAtomic (R : Rcl E) (context : Ptr) (calls : List (ExecutorCall κ E)) : Prop where
  unchanged : ∀ t ∈ (executorMachine R).transitions (construct context) calls,
    ∀ failure, t.result = .attached (.error failure) → ∀ k, t.post.pairs k = t.pre.pairs k
  registered : ∀ k, ((executorMachine R).run (construct context) calls).pairs k =
    (attachedNodes ((executorMachine R).log (construct context) calls)).flatMap
      fun node => node.pairs k
  capacities : ∀ t ∈ (executorMachine R).transitions (construct context) calls,
    ∀ k, (t.post.pairs k).length ≤ t.post.waitSet.capacity k
  inRange : ∀ t ∈ (executorMachine R).transitions (construct context) calls,
    ∀ e k i, (spin R e t.post).1.outcome ≠ .error (.outOfRange k i)
  retry : ∀ t ∈ (executorMachine R).transitions (construct context) calls,
    ∀ e node failure, t.action = .addMyNode e node → t.result = .attached (.error failure) →
      ∀ e' k, (addMyNode R e' node t.post).2.pairs k = t.pre.pairs k ∨
        (addMyNode R e' node t.post).2.pairs k = t.pre.pairs k ++ node.pairs k

/-- The condition on a call: if it attaches a node with entities, `rcl_wait_set_init` succeeds on
the executor's wait set. -/
def AttachesCleanly (R : Rcl E)
    (t : Mealy.Transition (MyExecutor κ) (ExecutorCall κ E) (ExecutorResult κ)) : Prop :=
  ∀ e node, t.action = .addMyNode e node →
    (∀ k, node.pairs k = []) ∨ (initAnswer R e node t.pre).1 = .ok

/-- A clean attachment that fails is that of a node without entities. -/
theorem AttachesCleanly.returned_or_empty {e : E} {node : MyNode κ}
    (h : AttachesCleanly R ((executorMachine R).transition ex (.addMyNode e node))) :
    (addMyNode R e node ex).1 = .ok () ∨ ∀ k, node.pairs k = [] := by
  rcases h e node rfl with hempty | hret
  · exact Or.inr hempty
  · exact Or.inl ((addMyNode_ok_iff R e node ex).2 hret)

/-- An attachment of a node without entities leaves the lists alone. -/
theorem pairs_addMyNode_of_empty {node : MyNode κ} (hempty : ∀ k, node.pairs k = []) (e : E)
    (k : EntityKind) : (addMyNode R e node ex).2.pairs k = ex.pairs k := by
  rw [pairs_addMyNode, hempty, List.append_nil]

/-- A failed call of a clean run attaches a node without entities, so it leaves the lists alone. -/
theorem AttachesCleanly.of_failed {call : ExecutorCall κ E} {failure : Failure}
    (h : AttachesCleanly R ((executorMachine R).transition ex call))
    (hresult : ((executorMachine R).step ex call).1 = .attached (.error failure)) :
    ∃ e node, call = .addMyNode e node ∧ (∀ k, node.pairs k = []) ∧
      ∀ k, ((executorMachine R).step ex call).2.pairs k = ex.pairs k := by
  cases call with
  | spin e => cases hresult
  | addMyNode e node =>
      have hret : (addMyNode R e node ex).1 = .error failure :=
        ExecutorResult.attached.inj hresult
      have hempty := h.returned_or_empty.resolve_left (by simp [hret])
      exact ⟨e, node, rfl, hempty, pairs_addMyNode_of_empty hempty e⟩

/-- A failed attachment of a node without entities changes neither lists nor capacities. -/
theorem capacitiesMatch_of_failed (hfailed : R.FailedInitDocumented) (hcap : CapacitiesMatch ex)
    {e : E} {node : MyNode κ} (hempty : ∀ k, node.pairs k = [])
    (hret : (addMyNode R e node ex).1 ≠ .ok ()) : CapacitiesMatch (addMyNode R e node ex).2 := by
  intro k
  rw [pairs_addMyNode_of_empty hempty, waitSet_addMyNode, ← hcap k]
  exact hfailed e ex.waitSet _ _ (fun h => hret ((addMyNode_ok_iff R e node ex).2 h)) k

/-- After clean calls the lists are extended by those of the attached nodes. -/
theorem pairs_run_of_clean {calls : List (ExecutorCall κ E)}
    (hclean : ∀ t ∈ (executorMachine R).transitions ex calls, AttachesCleanly R t)
    (k : EntityKind) :
    ((executorMachine R).run ex calls).pairs k = ex.pairs k ++
      (attachedNodes ((executorMachine R).log ex calls)).flatMap fun node => node.pairs k := by
  induction calls generalizing ex with
  | nil => simp [attachedNodes]
  | cons call calls ih =>
      rw [Mealy.transitions_cons, List.forall_mem_cons] at hclean
      rw [Mealy.run_cons, ih hclean.2, Mealy.log_cons]
      cases call with
      | spin e => simp [attachedNodes]
      | addMyNode e node =>
          match hret : (addMyNode R e node ex).1 with
          | .ok () => simp [attachedNodes, hret]
          | .error failure =>
              -- nothing was attached, and the node had nothing to attach
              have hempty := hclean.1.returned_or_empty.resolve_left (by simp [hret])
              simp [attachedNodes, hret, hempty]

section Documented

variable (hinit : R.InitDocumented) (hfailed : R.FailedInitDocumented)
  (hclear : R.ClearDocumented) (hadd : R.AddDocumented) (hwait : R.WaitDocumented)

include hinit hfailed hclear hadd hwait

/-- Clean calls keep the capacities equal to the lengths of the lists. -/
theorem capacitiesMatch_step (ex : MyExecutor κ) (call : ExecutorCall κ E)
    (hcap : CapacitiesMatch ex)
    (hclean : AttachesCleanly R ((executorMachine R).transition ex call)) :
    CapacitiesMatch ((executorMachine R).step ex call).2 := by
  cases call with
  | spin e => exact capacitiesMatch_spin hclear hadd hwait e hcap
  | addMyNode e node =>
      by_cases hret : (addMyNode R e node ex).1 = .ok ()
      · exact (waitSet_of_attached hinit hret).2
      · exact capacitiesMatch_of_failed hfailed hcap
          (hclean.returned_or_empty.resolve_left hret) hret

/-- Failed attachments have no effect in a run whose attachments are all clean. -/
theorem attachAtomic_of_clean {context : Ptr} {calls : List (ExecutorCall κ E)}
    (hclean : ∀ t ∈ (executorMachine R).transitions (construct context) calls,
      AttachesCleanly R t) : AttachAtomic R context calls := by
  -- the capacities match before every call, and hence after it
  have hpre := ((executorMachine R).invariant_of_step CapacitiesMatch (AttachesCleanly R)
    (capacitiesMatch_step hinit hfailed hclear hadd hwait) (capacitiesMatch_construct context)
    hclean).2
  have hpost : ∀ t ∈ (executorMachine R).transitions (construct context) calls,
      CapacitiesMatch t.post := by
    intro t ht
    have hcap := hpre t ht
    have hok := hclean t ht
    obtain ⟨before, call, after, -, rfl⟩ := (executorMachine R).mem_transitions.1 ht
    exact capacitiesMatch_step hinit hfailed hclear hadd hwait _ call hcap hok
  refine ⟨fun t ht failure hresult => ?_, fun k => ?_, fun t ht k => (hpost t ht k).ge,
    fun t ht e => (dispatchesReady_spin hclear hadd hwait (hpost t ht) e).inRange,
    fun t ht e node failure haction hresult e' k => Or.inl ?_⟩
  · have hok := hclean t ht
    obtain ⟨before, call, after, -, rfl⟩ := (executorMachine R).mem_transitions.1 ht
    obtain ⟨_, _, -, -, hsame⟩ := hok.of_failed hresult
    exact hsame
  · rw [pairs_run_of_clean hclean, pairs_construct, List.nil_append]
  · have hok := hclean t ht
    obtain ⟨before, call, after, -, rfl⟩ := (executorMachine R).mem_transitions.1 ht
    obtain ⟨e₁, node₁, hcall, hempty, hsame⟩ := hok.of_failed hresult
    obtain ⟨rfl, rfl⟩ := ExecutorCall.addMyNode.inj (hcall.symm.trans haction)
    -- neither the failed attempt nor the retry has anything to register
    rw [pairs_addMyNode_of_empty hempty]
    exact hsame k

end Documented

/-- If failed attachments leave the lists alone, every attachment is clean. -/
theorem AttachAtomic.clean {context : Ptr} {calls : List (ExecutorCall κ E)}
    (h : AttachAtomic R context calls) :
    ∀ t ∈ (executorMachine R).transitions (construct context) calls, AttachesCleanly R t := by
  intro t ht e node haction
  have hunchanged := h.unchanged t ht
  obtain ⟨before, call, after, -, rfl⟩ := (executorMachine R).mem_transitions.1 ht
  obtain rfl : call = .addMyNode e node := haction
  match hret : (addMyNode R e node ((executorMachine R).run (construct context) before)).1 with
  | .error failure =>
      -- the lists were extended by the node's, and are the same as before
      refine Or.inl fun k => ?_
      have hsame := hunchanged failure (by simp [hret]) k
      simpa using hsame
  | .ok () => exact Or.inr ((addMyNode_ok_iff R e node _).1 hret)

/-- In a run of calls from a fresh executor failed attachments have no effect if and only if every
attachment of a node with entities succeeds. -/
theorem attachAtomic_iff (hinit : R.InitDocumented) (hfailed : R.FailedInitDocumented)
    (hclear : R.ClearDocumented) (hadd : R.AddDocumented) (hwait : R.WaitDocumented)
    (context : Ptr) (calls : List (ExecutorCall κ E)) :
    AttachAtomic R context calls ↔
      ∀ t ∈ (executorMachine R).transitions (construct context) calls, AttachesCleanly R t :=
  ⟨AttachAtomic.clean, attachAtomic_of_clean hinit hfailed hclear hadd hwait⟩

theorem attachAtomic_iff_attach_spin :
    AttachAtomic Rcl.reference 0 [.addMyNode {} (serviceNode 10 "add_two_ints" 1), .spin {}] ↔
      ∀ t ∈ (executorMachine Rcl.reference).transitions (construct 0)
        [.addMyNode {} (serviceNode 10 "add_two_ints" 1), .spin {}],
        AttachesCleanly Rcl.reference t :=
  attachAtomic_iff Rcl.reference_initDocumented Rcl.reference_failedInitDocumented
    Rcl.reference_clearDocumented Rcl.reference_addDocumented Rcl.reference_waitDocumented 0 _

/-- A second attachment throws with the node's service already in the list, and the next spin reads
beyond the wait set's array. -/
theorem not_attachAtomic_second :
    ¬ AttachAtomic Rcl.reference 0 [.addMyNode {} (serviceNode 10 "add_two_ints" 1),
        .addMyNode {} (serviceNode 11 "add_three_ints" 2)] ∧
      (spin Rcl.reference {} ((executorMachine Rcl.reference).run (construct 0)
        [.addMyNode {} (serviceNode 10 "add_two_ints" 1),
          .addMyNode {} (serviceNode 11 "add_three_ints" 2)])).1.outcome =
        .error (.outOfRange .service 1) := by
  refine ⟨fun h => ?_, by decide⟩
  have hsame := h.unchanged _ (List.mem_cons_of_mem _ (List.mem_singleton_self _)) _ rfl .service
  exact absurd hsame (by decide)

end Rclmine
