import Rclmine.Executor.Attach

/-!
# Constructing the parameter service

The model of the constructor of `MyParameterService` (`my_parameter_service.h`). It registers its
four handlers one after another on a node it does not own. Each registration throws if
`rcl_service_init` fails, and nothing takes the earlier ones back.

The module introduces:

* `MyParameterService.construct`: the constructor. It leaves on the node the services before the
  first failure (`run_construct_some`);
* `AllOrNothing`: it leaves all four services or nothing, and no executor ever invokes a handler of
  an object that was not constructed;
* `constructAllOrNothing_iff`: this holds exactly if nothing fails after the first registration.
-/

namespace Rclmine

/-- The handlers of a parameter service. -/
inductive Handler
  | getParameters
  | setParameters
  | listParameters
  | describeParameters
  deriving DecidableEq

/-- The name of the service a handler is registered for. -/
def Handler.serviceName : Handler → String
  | .getParameters => "get_parameters"
  | .setParameters => "set_parameters"
  | .listParameters => "list_parameters"
  | .describeParameters => "describe_parameters"

/-- The handlers in the order they are registered. -/
def Handler.all : List Handler :=
  [.getParameters, .setParameters, .listParameters, .describeParameters]

/-- A `MyParameterService`: the pointer to its storage. -/
structure MyParameterService where
  parameterStorage : Ptr

variable {κ : Type}

/-- `MyParameterService::MyParameterService` with a node and a storage pointer, `none` if it is
null. The callbacks are the lambdas of the constructor, which capture the object under construction;
`init` is what the calls of `rcl_service_init` answer. -/
def MyParameterService.construct (callback : Handler → κ) (parameterStorage : Option Ptr)
    (init : Handler → EntityInit) : NodeM κ MyParameterService := do
  match parameterStorage with
  | none => throw "Invalid parameter storage"
  | some parameterStorage => do
      MyNode.createService "get_parameters" (callback .getParameters) (init .getParameters)
      MyNode.createService "set_parameters" (callback .setParameters) (init .setParameters)
      MyNode.createService "list_parameters" (callback .listParameters) (init .listParameters)
      MyNode.createService "describe_parameters" (callback .describeParameters)
        (init .describeParameters)
      return { parameterStorage }

open MyParameterService

variable (callback : Handler → κ) (parameterStorage : Option Ptr) (init : Handler → EntityInit)
  (node : MyNode κ)

/-! ### What the constructor leaves on the node -/

/-- The services of the handlers `hs` on a node. -/
def servicesOf (hs : List Handler) : List (Entity κ) :=
  hs.map fun h => node.entity h.serviceName (callback h) (init h)

/-- Registering handlers one after another adds those before the first failure. -/
theorem run_forM_createService (hs : List Handler) :
    (forM hs fun h => MyNode.createService h.serviceName (callback h) (init h)).run.run node =
      (if ∀ h ∈ hs, (init h).ret = .ok then .ok () else .error "Failed to initialize service",
        { node with services := node.services ++
            servicesOf callback init node (hs.takeWhile fun h => (init h).ret = .ok) }) := by
  induction hs generalizing node with
  | nil =>
      simp only [servicesOf, List.takeWhile_nil, List.map_nil, List.append_nil]
      rfl
  | cons h hs ih =>
      have hrun := MyNode.run_createService node h.serviceName (callback h) (init h)
      by_cases hret : (init h).ret = .ok
      · -- the node has one service more, and the same handle
        rw [if_pos hret] at hrun
        rw [List.forM_cons, run_bind_of_ok hrun, ih]
        simp [hret, servicesOf, MyNode.entity]
      · rw [if_neg hret] at hrun
        rw [List.forM_cons, run_bind_of_error hrun]
        simp [hret, servicesOf]

theorem run_construct_none :
    (construct callback none init).run.run node = (.error "Invalid parameter storage", node) :=
  rfl

/-- With a storage the constructor registers the handlers before the first failure. -/
theorem run_construct_some (storage : Ptr) :
    (construct callback (some storage) init).run.run node =
      (if ∀ h ∈ Handler.all, (init h).ret = .ok then .ok { parameterStorage := storage }
        else .error "Failed to initialize service",
        { node with
          services := node.services ++ servicesOf callback init node
            (Handler.all.takeWhile fun h => (init h).ret = .ok) }) := by
  have hrun := run_forM_createService callback init node Handler.all
  have hconstruct : construct callback (some storage) init =
      (forM Handler.all fun h => MyNode.createService h.serviceName (callback h) (init h)) >>=
        fun _ => pure { parameterStorage := storage } := by
    simp [construct, Handler.all, Handler.serviceName]
  by_cases hall : ∀ h ∈ Handler.all, (init h).ret = .ok
  · rw [if_pos hall] at hrun ⊢
    rw [hconstruct, run_bind_of_ok hrun]
    rfl
  · rw [if_neg hall] at hrun ⊢
    rw [hconstruct, run_bind_of_error hrun]

/-! ### All or nothing -/

/-- Constructing a parameter service is all or nothing for the node: either its four services are
added, or nothing is, and then none of its handlers is ever invoked. -/
structure AllOrNothing : Prop where
  /-- If the constructor returns, the four services follow the old ones, in order. -/
  returned : ∀ service node',
    (construct callback parameterStorage init).run.run node = (.ok service, node') →
      node'.services = node.services ++ servicesOf callback init node Handler.all ∧
        node'.subscriptions = node.subscriptions ∧ node'.clients = node.clients
  /-- If it throws, the node has the lists it had before. -/
  threw : ∀ what node',
    (construct callback parameterStorage init).run.run node = (.error what, node') →
      node'.services = node.services ∧ node'.subscriptions = node.subscriptions ∧
        node'.clients = node.clients
  /-- If it throws, no run of an executor to which this node and nodes without the handlers are
  attached invokes a handler; the node itself had none of them before. -/
  neverDispatched : ∀ what node',
    (construct callback parameterStorage init).run.run node = (.error what, node') →
      AllCallbacks (fun c => ∀ h, c ≠ callback h) node.pairs →
      ∀ {E : Type} (R : Rcl E) (context : Ptr) (calls : List (ExecutorCall κ E)),
        (∀ e node₁, .addMyNode e node₁ ∈ calls →
          node₁ = node' ∨ AllCallbacks (fun c => ∀ h, c ≠ callback h) node₁.pairs) →
        ∀ t ∈ (executorMachine R).transitions (MyExecutor.construct context) calls, ∀ result,
          t.result = .spun result → ∀ c ∈ result.calls, ∀ h, c.callback ≠ callback h

variable {callback parameterStorage init node}

/-- A constructor that throws without touching the node is all or nothing. -/
theorem allOrNothing_of_unchanged {what : String}
    (hrun : (construct callback parameterStorage init).run.run node = (.error what, node)) :
    AllOrNothing callback parameterStorage init node where
  returned service node' h := by
    rw [hrun] at h
    cases h
  threw what' node' h := by
    rw [hrun] at h
    cases h
    exact ⟨rfl, rfl, rfl⟩
  neverDispatched what' node' h hfree E R context calls hnodes := by
    rw [hrun] at h
    cases h
    refine dispatched_of_attached R (P := fun c => ∀ h, c ≠ callback h) fun e node₁ hcall => ?_
    rcases hnodes e node₁ hcall with rfl | hfree₁
    · exact hfree
    · exact hfree₁

/-- A constructor whose registrations all succeed is all or nothing. -/
theorem allOrNothing_of_ok (hok : ∀ h, (init h).ret = .ok) (storage : Ptr) :
    AllOrNothing callback (some storage) init node := by
  have hrun := run_construct_some callback init node storage
  rw [if_pos fun h _ => hok h, List.takeWhile_eq_self_iff.mpr fun h _ => by simp [hok h]] at hrun
  refine ⟨fun service node' h => ?_, fun what node' h => ?_, fun what node' h => ?_⟩ <;>
    rw [hrun] at h <;> cases h
  exact ⟨rfl, rfl, rfl⟩

/-- Constructing a parameter service is all or nothing exactly if the storage pointer is null, the
first registration fails or all registrations succeed: a failure after the first one leaves services
on the node whose handlers capture an object that was never constructed. -/
theorem constructAllOrNothing_iff (callback : Handler → κ) (parameterStorage : Option Ptr)
    (init : Handler → EntityInit) (node : MyNode κ) :
    AllOrNothing callback parameterStorage init node ↔
      parameterStorage = none ∨ (init .getParameters).ret ≠ .ok ∨ ∀ h, (init h).ret = .ok := by
  match parameterStorage with
  | none =>
      exact iff_of_true (allOrNothing_of_unchanged (run_construct_none callback init node))
        (Or.inl rfl)
  | some storage =>
      have hrun := run_construct_some callback init node storage
      by_cases hok : ∀ h, (init h).ret = .ok
      · exact iff_of_true (allOrNothing_of_ok hok storage) (Or.inr (Or.inr hok))
      · have hnot : ¬ ∀ h ∈ Handler.all, (init h).ret = .ok := fun hall =>
          hok fun h => hall h (by cases h <;> simp [Handler.all])
        rw [if_neg hnot] at hrun
        by_cases hfirst : (init .getParameters).ret = .ok
        · -- the first service was added before the constructor threw
          refine iff_of_false (fun h => ?_) (by simp [hfirst, hok])
          have hsame := (h.threw _ _ hrun).1
          simp [servicesOf, Handler.all, hfirst] at hsame
        · have hnone : (Handler.all.takeWhile fun h => (init h).ret = .ok) = [] := by
            simp [Handler.all, hfirst]
          rw [hnone, servicesOf, List.map_nil, List.append_nil] at hrun
          exact iff_of_true (allOrNothing_of_unchanged hrun) (Or.inr (Or.inl hfirst))

/-- The answers of `rcl_service_init` where only the second call fails. -/
def secondInitFails : Handler → EntityInit
  | .setParameters => { handle := 21, ret := .error }
  | _ => { handle := 20 }

/-- If the second registration fails, the node keeps the first service, and a spin of an executor it
is attached to invokes the handler of the object that was not constructed. -/
theorem not_allOrNothing_second :
    ¬ AllOrNothing (fun h => h) (some 1) secondInitFails { nodeHandle := 10 } ∧
      ∃ what node', (construct (fun h => h) (some 1) secondInitFails).run.run { nodeHandle := 10 } =
          (.error what, node') ∧
        (MyExecutor.spin Rcl.reference {}
            (MyExecutor.addMyNode Rcl.reference {} node' (MyExecutor.construct 0)).2).1.calls =
          [⟨.service, 0, 20, .getParameters⟩] := by
  refine ⟨fun h => ?_, _, _, rfl, by decide⟩
  have hsame := (h.threw _ _ rfl).1
  exact absurd hsame (by decide)

end Rclmine
