import Rclmine.AddTwoInts.Defs
import Rclmine.Executor.Attach

/-!
# The old loops and the executor

Before the executor `MyService::service` and `MyClient::sendRequest` (`old/my_service_old.h`,
`old/my_client_old.h`) waited for their own entity: each initialises a wait set with one slot and
then clears it, adds its handle, waits, and takes if the slot is not null. The programs of
`usecase/` attach a node with one entity to a `MyExecutor` and spin. This module compares the two.

An input of a loop is what the environment decides in one iteration: the environment of the calls of
`rcl` and what the take of a request or response delivers, if it is called.

The module introduces:

* `iterate`, `MyService.service` and `MyClient.sendRequest`: the old loops;
* `executorMain`: a node attached to an executor that spins until something is thrown;
* `asIteration`: an iteration of an old loop, seen in a spin;
* `service_eq_executorMain`: in every run the iterations of `MyService::service` are the spins;
* `sendRequest_eq_executorMain`: those of `MyClient::sendRequest` are the spins up to the first
  response that the callback of the client gets.
-/

namespace Rclmine.Old

open MyExecutor

variable {κ E α : Type}

/-- What the environment decides in one iteration: `take` is what the take delivers, unless it
fails. -/
structure LoopInput (E α : Type) where
  env : E
  take : Option α

/-- What one iteration did: how it ended, what `rcl_wait` returned if it was called, and what the
take delivered if it was called. -/
structure Iteration (α : Type) where
  outcome : Except Failure Unit
  waited : Option RclRet := none
  took : Option (Option α) := none

/-- An exception leaves the loop. -/
def Iteration.threw (it : Iteration α) : Bool :=
  it.outcome matches .error _

/-- The message that was taken. -/
def Iteration.received (it : Iteration α) : Option α :=
  it.took.join

/-- The body of the loops. -/
def iterate (R : Rcl E) (k : EntityKind) (what : String) (handle : Ptr) (ws : WaitSet)
    (input : LoopInput E α) : Iteration α × WaitSet :=
  let (ret, ws) := R.waitSetClear input.env ws
  if ret ≠ .ok then ({ outcome := .error (.threw "Failed to clear wait set") }, ws)
  else
    let (ret, ws) := R.waitSetAdd input.env k ws handle
    if ret ≠ .ok then
      ({ outcome := .error (.threw ("Failed to add " ++ what ++ " to wait set")) }, ws)
    else
      -- the timeout is that of `MyExecutor::spin`
      let (ret, ws) := R.wait input.env ws spinTimeout
      if ret = .timeout then ({ outcome := .ok (), waited := some ret }, ws)
      else
        match (ws.slots k)[0]? with
        | none => ({ outcome := .error (.outOfRange k 0), waited := some ret }, ws)
        | some none => ({ outcome := .ok (), waited := some ret }, ws)
        | some (some _) =>
            ({ outcome := .ok (), waited := some ret, took := some input.take }, ws)

/-- Iterations as a machine on the wait set. -/
def loopMachine (R : Rcl E) (k : EntityKind) (what : String) (handle : Ptr) :
    Mealy WaitSet (LoopInput E α) (Iteration α) where
  step := iterate R k what handle

/-- A wait set is initialised and the loop runs until an iteration satisfies `stop`. -/
def waitFor (R : Rcl E) (k : EntityKind) (what : String) (sizes : WaitSetSizes)
    (stop : Iteration α → Bool) (env : E) (context handle : Ptr) (inputs : List (LoopInput E α)) :
    Except Failure (List (Iteration α)) :=
  let (ret, ws) := R.waitSetInit env .zeroInitialized sizes context
  if ret ≠ .ok then .error (.threw "Failed to initialize wait set")
  else .ok (Mealy.upTo stop ((loopMachine R k what handle).results ws inputs))

/-- `MyService::service`, which takes requests until something is thrown. -/
def MyService.service (R : Rcl E) (env : E) (context handle : Ptr)
    (inputs : List (LoopInput E (RequestId × AddTwoInts.Request))) :
    Except Failure (List (Iteration (RequestId × AddTwoInts.Request))) :=
  waitFor R .service "service" ⟨0, 0, 0, 0, 1, 0⟩ Iteration.threw env context handle inputs

/-- `MyClient::sendRequest` up to the end of its loop, on what `rcl_send_request` returned. It
breaks out of the loop after the first response; a failed take is only reported. The
`rcl_wait_set_fini` after the loop, whose failure would be thrown, is left out. -/
def MyClient.sendRequest (R : Rcl E) (env : E) (context handle : Ptr) (ret : RclRet)
    (inputs : List (LoopInput E (RequestId × AddTwoInts.Response))) :
    Except Failure (List (Iteration (RequestId × AddTwoInts.Response))) :=
  if ret ≠ .ok then .error (.threw "Failed to send request")
  else
    waitFor R .client "client" ⟨0, 0, 0, 1, 0, 0⟩ (fun it => it.threw || it.received.isSome) env
      context handle inputs

/-! ### The programs with an executor -/

/-- Spins as a machine, each with what the take of a callback delivers. -/
def takingMachine (R : Rcl E) :
    Mealy (MyExecutor κ) (LoopInput E α) (SpinResult κ × Option α) where
  step ex input := let (result, ex) := spin R input.env ex; ((result, input.take), ex)

/-- The iteration of an old loop that a spin stands for: the take is that of the callback. -/
def asIteration (spun : SpinResult κ × Option α) : Iteration α where
  outcome := spun.1.outcome
  waited := spun.1.waited
  took := if spun.1.calls = [] then none else some spun.2

/-- The programs from `executor.addMyNode` on: the executor spins until something is thrown. -/
def executorMain (R : Rcl E) (env : E) (context : Ptr) (node : Rclmine.MyNode κ)
    (inputs : List (LoopInput E α)) : Except Failure (List (SpinResult κ × Option α)) :=
  let (outcome, ex) := addMyNode R env node (construct context)
  match outcome with
  | .error failure => .error failure
  | .ok () => .ok (Mealy.upTo (fun spun => (asIteration spun).threw)
      ((takingMachine R).results ex inputs))

/-! ### One spin and one iteration -/

/-- The executor has one entity, of kind `k`. -/
def Single (k : EntityKind) (pair : CallbackPair κ) (ex : MyExecutor κ) : Prop :=
  ∀ k', ex.pairs k' = if k' = k then [pair] else []

variable {R : Rcl E} {k : EntityKind} {pair : CallbackPair κ} {ex : MyExecutor κ}

/-- The lists of an executor with one entity. -/
theorem Single.lists (h : Single k pair ex) :
    ex.subscriptions = (if .subscription = k then [pair] else []) ∧
      ex.clients = (if .client = k then [pair] else []) ∧
      ex.services = (if .service = k then [pair] else []) :=
  ⟨h .subscription, h .client, h .service⟩

/-- An executor with one entity adds the handle that the old loop adds. -/
theorem Single.armed (h : Single k pair ex) (e : E) (ws : WaitSet) :
    armed R e ex ws = (R.waitSetAdd e k ws pair.handle).2 := by
  obtain ⟨hsub, hcli, hsrv⟩ := h.lists
  cases k <;> simp [Rclmine.armed, toAdd, additions, addAll, hsub, hcli, hsrv]

/-- A dispatch loop over one entity. -/
theorem run_dispatch_single (k : EntityKind) (slots : List (Option Ptr)) (pair : CallbackPair κ) :
    (dispatch k slots [pair] 0).run.run [] =
      match slots[0]? with
      | none => (.error (.outOfRange k 0), [])
      | some none => (.ok (), [])
      | some (some _) => (.ok (), [⟨k, 0, pair.handle, pair.callback⟩]) := by
  rw [run_dispatch_cons]
  rfl

/-- An executor with one entity looks at the slot that the old loop looks at. -/
theorem Single.run_dispatchAll (h : Single k pair ex) (ws : WaitSet) :
    (ex.dispatchAll ws).run.run [] =
      match (ws.slots k)[0]? with
      | none => (.error (.outOfRange k 0), [])
      | some none => (.ok (), [])
      | some (some _) => (.ok (), [⟨k, 0, pair.handle, pair.callback⟩]) := by
  obtain ⟨hsub, hcli, hsrv⟩ := h.lists
  rw [← run_dispatch_single]
  have hnil (k' : EntityKind) :
      dispatch k' (ws.slots k') ([] : List (CallbackPair κ)) 0 = pure () := rfl
  -- the loops over the other two kinds do nothing
  cases k <;>
    simp only [dispatchAll, hsub, hcli, hsrv, reduceCtorEq, ↓reduceIte, hnil, pure_bind,
      bind_pure_unit]

/-- What an old loop and an executor with the same entity have in common between two iterations. -/
structure Aligned (k : EntityKind) (pair : CallbackPair κ) (ex : MyExecutor κ) (ws : WaitSet) :
    Prop where
  single : Single k pair ex
  capacities : CapacitiesMatch ex
  waitSet : ex.waitSet = ws

/-- After clearing there is room for the handle, so it is added. -/
theorem Aligned.waitSetAdd {ws : WaitSet} (h : Aligned k pair ex ws) (hclear : R.ClearDocumented)
    (hadd : R.AddDocumented) {e : E} (hret : (R.waitSetClear e ws).1 = .ok) :
    (R.waitSetAdd e k (R.waitSetClear e ws).2 pair.handle).1 = .ok := by
  obtain ⟨hinit, hempty⟩ := hclear.ok e ws hret
  rw [hadd.ok e k _ pair.handle hinit]
  rw [(hempty k).2, hclear.capacity, ← h.waitSet, h.capacities k, h.single k, if_pos rfl]
  exact Nat.zero_lt_one

/-- An iteration of the old loop is a spin. -/
theorem Aligned.iterate_eq {ws : WaitSet} (h : Aligned k pair ex ws) (hclear : R.ClearDocumented)
    (hadd : R.AddDocumented) (what : String) (input : LoopInput E α) :
    iterate R k what pair.handle ws input =
      (asIteration ((spin R input.env ex).1, input.take), (spin R input.env ex).2.waitSet) := by
  obtain rfl := h.waitSet
  have hanswer : answer R input.env ex =
      R.wait input.env
        (R.waitSetAdd input.env k (R.waitSetClear input.env ex.waitSet).2 pair.handle).2
        spinTimeout := by
    rw [answer, h.single.armed]
  -- the tests of the return codes come out the same on both sides
  obtain ⟨hret, hspin⟩ | ⟨hret, hans, hspin⟩ | ⟨hret, hans, hspin⟩ := spin_cases R input.env ex
  · simp [iterate, hspin, hret, asIteration]
  · have hok := h.waitSetAdd hclear hadd hret
    rw [hanswer] at hans
    simp [iterate, hspin, hret, hok, hans, hanswer, asIteration]
  · have hok := h.waitSetAdd hclear hadd hret
    have hwalk := h.single.run_dispatchAll (answer R input.env ex).2
    rw [hwalk, hanswer] at hspin
    rw [hanswer] at hans
    -- both look at the only slot
    rcases hslot : ((R.wait input.env (R.waitSetAdd input.env k
      (R.waitSetClear input.env ex.waitSet).2 pair.handle).2 spinTimeout).2.slots k)[0]? with
      _ | _ | _ <;>
      simp [iterate, hspin, hret, hok, hans, hslot, asIteration]

/-- After a spin the two are aligned again. -/
theorem Aligned.spin {ws : WaitSet} (h : Aligned k pair ex ws) (hclear : R.ClearDocumented)
    (hadd : R.AddDocumented) (hwait : R.WaitDocumented) (e : E) :
    Aligned k pair (spin R e ex).2 (spin R e ex).2.waitSet where
  single k' := by rw [pairs_spin, h.single k']
  capacities := capacitiesMatch_spin hclear hadd hwait e h.capacities
  waitSet := rfl

/-- A spin invokes the callback of the only entity, on its handle, or nothing. -/
theorem Single.calls_spin (h : Single k pair ex) (R : Rcl E) (e : E) :
    (spin R e ex).1.calls = [] ∨
      (spin R e ex).1.calls = [⟨k, 0, pair.handle, pair.callback⟩] := by
  obtain ⟨-, hspin⟩ | ⟨-, -, hspin⟩ | ⟨-, -, hspin⟩ := spin_cases R e ex
  · simp [hspin]
  · simp [hspin]
  · rw [hspin, h.run_dispatchAll]
    rcases ((answer R e ex).2.slots k)[0]? with _ | _ | _ <;> simp

/-! ### Whole runs -/

/-- The node has one entity, of kind `k`, so the executor it is attached to has it too. -/
theorem single_addMyNode {node : Rclmine.MyNode κ}
    (hnode : ∀ k', node.pairs k' = if k' = k then [pair] else []) (e : E) (context : Ptr) :
    Single k pair (addMyNode R e node (construct context)).2 := fun k' => by
  rw [pairs_addMyNode, pairs_construct, List.nil_append, hnode k']

@[simp] theorem context_extendLists (ex : MyExecutor κ) (node : Rclmine.MyNode κ) :
    (ex.extendLists node).context = ex.context := by
  unfold extendLists addSubscriptions addClients addServices
  split_ifs <;> rfl

/-- Both programs initialise their wait set by the same call. -/
theorem initAnswer_construct {node : Rclmine.MyNode κ} {sizes : WaitSetSizes} {context : Ptr}
    (hsizes : ((construct context).extendLists node).sizes = sizes) (e : E) :
    initAnswer R e node (construct context) = R.waitSetInit e .zeroInitialized sizes context := by
  rw [initAnswer, hsizes, context_extendLists]
  rfl

/-- From aligned states an old loop runs as the executor spins. -/
theorem Aligned.results {ws : WaitSet} (h : Aligned k pair ex ws) (hclear : R.ClearDocumented)
    (hadd : R.AddDocumented) (hwait : R.WaitDocumented) (what : String)
    (inputs : List (LoopInput E α)) :
    (loopMachine R k what pair.handle).results ws inputs =
      ((takingMachine R).results ex inputs).map asIteration := by
  refine Mealy.results_of_simulation (Aligned k pair) asIteration ?_ h inputs
  intro ex ws input h
  have hstep : (loopMachine R k what pair.handle).step ws input = _ :=
    h.iterate_eq hclear hadd what input
  rw [hstep]
  exact ⟨rfl, h.spin hclear hadd hwait input.env⟩

/-- An old loop runs as the executor spins, whatever it stops at. -/
theorem waitFor_eq (hinit : R.InitDocumented) (hclear : R.ClearDocumented)
    (hadd : R.AddDocumented) (hwait : R.WaitDocumented) {node : Rclmine.MyNode κ}
    (hnode : ∀ k', node.pairs k' = if k' = k then [pair] else []) {sizes : WaitSetSizes}
    {context : Ptr} (hsizes : ((construct context).extendLists node).sizes = sizes) (what : String)
    (stop : Iteration α → Bool) (env : E) (inputs : List (LoopInput E α)) :
    waitFor R k what sizes stop env context pair.handle inputs =
      match (addMyNode R env node (construct context)).1 with
      | .error failure => .error failure
      | .ok () => .ok (Mealy.upTo stop (((takingMachine R).results
          (addMyNode R env node (construct context)).2 inputs).map asIteration)) := by
  have hanswer := initAnswer_construct (R := R) hsizes env
  rw [waitFor, ← hanswer]
  by_cases hret : (initAnswer R env node (construct context)).1 = .ok
  · have hok := (addMyNode_ok_iff R env node (construct context)).2 hret
    -- the loop starts with the wait set that the executor starts with
    have haligned : Aligned k pair (addMyNode R env node (construct context)).2
        (initAnswer R env node (construct context)).2 :=
      ⟨single_addMyNode hnode env context, (waitSet_of_attached hinit hok).2,
        waitSet_addMyNode R env node (construct context)⟩
    rw [hok]
    simp only [hret, ne_eq, not_true_eq_false, ↓reduceIte]
    rw [haligned.results hclear hadd hwait]
  · -- both throw the same exception
    have hthrew : (addMyNode R env node (construct context)).1 =
        .error (.threw "Failed to initialize wait set") := by
      rw [addMyNode_eq, if_neg hret]
    rw [hthrew]
    simp only [hret, ne_eq, not_false_eq_true, ↓reduceIte]

theorem executorMain_eq (R : Rcl E) (env : E) (context : Ptr) (node : Rclmine.MyNode κ)
    (inputs : List (LoopInput E α)) :
    executorMain R env context node inputs =
      match (addMyNode R env node (construct context)).1 with
      | .error failure => .error failure
      | .ok () => .ok (Mealy.upTo (fun spun => (asIteration spun).threw)
          ((takingMachine R).results (addMyNode R env node (construct context)).2 inputs)) := rfl

/-- In every spin of a program with one entity its callback runs on its own handle, or none runs. -/
theorem calls_executorMain {node : Rclmine.MyNode κ}
    (hnode : ∀ k', node.pairs k' = if k' = k then [pair] else []) {env : E} {context : Ptr}
    {inputs : List (LoopInput E α)} {spins : List (SpinResult κ × Option α)}
    (h : executorMain R env context node inputs = .ok spins) :
    ∀ spun ∈ spins, spun.1.calls = [] ∨
      spun.1.calls = [⟨k, 0, pair.handle, pair.callback⟩] := by
  rw [executorMain_eq] at h
  have hsingle := single_addMyNode (R := R) hnode env context
  split at h
  · cases h
  · obtain rfl := Except.ok.inj h
    intro spun hspun
    obtain ⟨t, ht, rfl⟩ := List.mem_map.1 (Mealy.mem_of_mem_upTo hspun)
    -- spins leave the lists alone, so every spin of the run starts with the one entity
    have hpre := ((takingMachine R).invariant_of_step' (Single k pair)
      (fun ex input hex k' => (pairs_spin R input.env ex k').trans (hex k')) inputs hsingle).2 t ht
    obtain ⟨before, input, after, -, rfl⟩ := (takingMachine R).mem_transitions.1 ht
    exact hpre.calls_spin R input.env

/-- In every run of `MyService::service` its iterations are the spins of an executor with that
service alone: they end in the same way, and a request is taken exactly when the executor invokes
the callback of the service. -/
theorem service_eq_executorMain (hinit : R.InitDocumented) (hclear : R.ClearDocumented)
    (hadd : R.AddDocumented) (hwait : R.WaitDocumented) (nodeHandle : Ptr)
    (service : Rclmine.Entity κ) (env : E) (context : Ptr)
    (inputs : List (LoopInput E (RequestId × AddTwoInts.Request))) :
    MyService.service R env context service.handle inputs =
        (executorMain R env context { nodeHandle, services := [service] } inputs).map
          (List.map asIteration) ∧
      ∀ spins, executorMain R env context { nodeHandle, services := [service] } inputs = .ok spins →
        ∀ spun ∈ spins, spun.1.calls = [] ∨
          spun.1.calls = [⟨.service, 0, service.handle, service.callback⟩] := by
  have hnode (k' : EntityKind) :
      ({ nodeHandle, services := [service] } : Rclmine.MyNode κ).pairs k' =
        if k' = .service then [service.pair] else [] := by
    cases k' <;> rfl
  refine ⟨?_, fun spins hspins => calls_executorMain hnode hspins⟩
  rw [executorMain_eq, MyService.service]
  refine (waitFor_eq hinit hclear hadd hwait hnode rfl "service" _ env inputs).trans ?_
  rcases (addMyNode R env _ (construct context)).1 with failure | ⟨⟩
  · rfl
  · simp only [Mealy.upTo_map]
    rfl

/-- A run with a request, a timeout, an error of `rcl_wait` and a failed take. -/
def serviceInputs : List (LoopInput Environment (RequestId × AddTwoInts.Request)) :=
  [⟨{}, some (⟨7, 1⟩, ⟨1, 2⟩)⟩, ⟨{ waitRet := .timeout }, none⟩, ⟨{ waitRet := .error }, none⟩,
    ⟨{ ready := fun _ _ => false }, some (⟨7, 2⟩, ⟨3, 4⟩)⟩]

/-- The service of `main_executor_service.cpp`. -/
def addTwoIntsService : Rclmine.Entity String where
  nodeHandle := 10
  name := "arai_service"
  handle := 1
  callback := "service_callback"

theorem service_eq_executorMain_failedTake :
    MyService.service Rcl.reference {} 0 addTwoIntsService.handle serviceInputs =
        (executorMain Rcl.reference {} 0 { nodeHandle := 10, services := [addTwoIntsService] }
          serviceInputs).map (List.map asIteration) ∧
      ∀ spins, executorMain Rcl.reference {} 0
          { nodeHandle := 10, services := [addTwoIntsService] } serviceInputs = .ok spins →
        ∀ spun ∈ spins, spun.1.calls = [] ∨
          spun.1.calls =
            [⟨.service, 0, addTwoIntsService.handle, addTwoIntsService.callback⟩] :=
  service_eq_executorMain Rcl.reference_initDocumented Rcl.reference_clearDocumented
    Rcl.reference_addDocumented Rcl.reference_waitDocumented 10 addTwoIntsService {} 0 serviceInputs

/-- In every run of `MyClient::sendRequest` that sends its request, its iterations are the spins of
an executor with that client alone, up to the first response that the callback of the client gets;
so this is the only response it receives. -/
theorem sendRequest_eq_executorMain (hinit : R.InitDocumented) (hclear : R.ClearDocumented)
    (hadd : R.AddDocumented) (hwait : R.WaitDocumented) (nodeHandle : Ptr)
    (client : Rclmine.Entity κ) (env : E) (context : Ptr)
    (inputs : List (LoopInput E (RequestId × AddTwoInts.Response))) :
    MyClient.sendRequest R env context client.handle .ok inputs =
        (executorMain R env context { nodeHandle, clients := [client] } inputs).map
          (fun spins => Mealy.upTo (fun it => it.received.isSome) (spins.map asIteration)) ∧
      ∀ spins, executorMain R env context { nodeHandle, clients := [client] } inputs = .ok spins →
        (∃ its, MyClient.sendRequest R env context client.handle .ok inputs = .ok its ∧
          its.filterMap Iteration.received =
            ((spins.map asIteration).filterMap Iteration.received).take 1) ∧
        ∀ spun ∈ spins, spun.1.calls = [] ∨
          spun.1.calls = [⟨.client, 0, client.handle, client.callback⟩] := by
  have hnode (k' : EntityKind) :
      ({ nodeHandle, clients := [client] } : Rclmine.MyNode κ).pairs k' =
        if k' = .client then [client.pair] else [] := by
    cases k' <;> rfl
  have heq : MyClient.sendRequest R env context client.handle .ok inputs =
      (executorMain R env context { nodeHandle, clients := [client] } inputs).map
        (fun spins => Mealy.upTo (fun it => it.received.isSome) (spins.map asIteration)) := by
    rw [executorMain_eq, MyClient.sendRequest, if_neg (by simp)]
    refine (waitFor_eq hinit hclear hadd hwait hnode rfl "client" _ env inputs).trans ?_
    rcases (addMyNode R env _ (construct context)).1 with failure | ⟨⟩
    · rfl
    · refine congrArg Except.ok ((Mealy.upTo_or _ _ _).trans ?_)
      -- an exception ends both loops
      rw [Mealy.upTo_map Iteration.threw]
      rfl
  refine ⟨heq, fun spins hspins => ⟨⟨_, ?_, Mealy.filterMap_upTo Iteration.received _⟩,
    calls_executorMain hnode hspins⟩⟩
  rw [heq, hspins]
  rfl

/-- A run with a timeout, a failed take and two responses. -/
def clientInputs : List (LoopInput Environment (RequestId × AddTwoInts.Response)) :=
  [⟨{ waitRet := .timeout }, none⟩, ⟨{}, none⟩, ⟨{}, some (⟨7, 1⟩, ⟨3⟩)⟩, ⟨{}, some (⟨7, 2⟩, ⟨5⟩)⟩]

/-- The client of `main_executor_client.cpp`. -/
def addTwoIntsClient : Rclmine.Entity String where
  nodeHandle := 10
  name := "arai_service"
  handle := 1
  callback := "client_callback"

theorem sendRequest_eq_executorMain_twoResponses :
    MyClient.sendRequest Rcl.reference {} 0 addTwoIntsClient.handle .ok clientInputs =
        (executorMain Rcl.reference {} 0 { nodeHandle := 10, clients := [addTwoIntsClient] }
          clientInputs).map
          (fun spins => Mealy.upTo (fun it => it.received.isSome) (spins.map asIteration)) ∧
      ∀ spins, executorMain Rcl.reference {} 0
          { nodeHandle := 10, clients := [addTwoIntsClient] } clientInputs = .ok spins →
        (∃ its, MyClient.sendRequest Rcl.reference {} 0 addTwoIntsClient.handle .ok clientInputs =
            .ok its ∧
          its.filterMap Iteration.received =
            ((spins.map asIteration).filterMap Iteration.received).take 1) ∧
        ∀ spun ∈ spins, spun.1.calls = [] ∨
          spun.1.calls = [⟨.client, 0, addTwoIntsClient.handle, addTwoIntsClient.callback⟩] :=
  sendRequest_eq_executorMain Rcl.reference_initDocumented Rcl.reference_clearDocumented
    Rcl.reference_addDocumented Rcl.reference_waitDocumented 10 addTwoIntsClient {} 0 clientInputs

/-- `sendRequest` returns with the first response, the third iteration of four. -/
example :
    (MyClient.sendRequest Rcl.reference {} 0 1 .ok
          [⟨{ waitRet := .timeout }, none⟩, ⟨{}, none⟩, ⟨{}, some (⟨7, 1⟩, ⟨3⟩)⟩,
            ⟨{}, some (⟨7, 2⟩, ⟨5⟩)⟩]).toOption.map
        (List.map fun it => (it.waited, it.took)) =
      some [(some .timeout, none), (some .ok, some none),
        (some .ok, some (some (⟨7, 1⟩, ⟨3⟩)))] := by
  decide

end Rclmine.Old
