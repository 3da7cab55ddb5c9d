import Rclmine.Parameter.Getters
import Rclmine.ParameterServer.Clients
import Rclmine.ParameterService.Construct

/-!
# The program of the parameter server

`main_parameter.cpp` from its start to the loop around `MyExecutor::spin`, and what holds in the
loop. The start-up calls `rcl` functions that may fail; each failure is thrown and nothing catches
it, so the loop is reached only if none of them fails.

The module introduces:

* `RCLUtils.init`, `MyNode.construct` and `mainParameter`: the start-up, which ends in the first
  state of the loop or in an exception;
* `throws_getParameterAs_congr`: whether a typed getter throws is decided by the stored classes, so
  no request changes it;
* `mainParameter_serves`: what holds in every run of the program with its clients: the four handlers
  are served and no spin reads a wait-set array out of range, the two declared parameters can always
  be read by their typed getters, and a set is accepted exactly for them with their type.
-/

namespace Rclmine

open MyExecutor MyParameterService MyParameter ParameterServer

variable {E : Type} {R : Rcl E} {T : ParameterType}

/-! ### The start-up -/

/-- `RCLUtils::init`, on what `rcl_init_options_init` and `rcl_init` return. -/
def RCLUtils.init (optionsRet initRet : RclRet) (context : Ptr) : Except Failure Ptr :=
  if optionsRet ≠ .ok then .error (.threw "Failed to initialize init options")
  else if initRet ≠ .ok then .error (.threw "Failed to initialize context")
  else .ok context

/-- `MyNode::MyNode`, on what `rcl_node_init` returns. -/
def MyNode.construct {κ : Type} (init : EntityInit) : Except Failure (MyNode κ) :=
  if init.ret ≠ .ok then .error (.threw "Failed to initialize node")
  else .ok { nodeHandle := init.handle }

/-- The callback that stands for a handler. -/
def Handler.callback : Handler → Callback
  | .getParameters => .getParameters
  | .setParameters => .setParameters
  | .listParameters => .listParameters
  | .describeParameters => .describeParameters

/-- What the environment answers during the start-up. -/
structure Startup (E : Type) where
  optionsRet : RclRet := .ok
  initRet : RclRet := .ok
  context : Ptr
  node : EntityInit
  storage : Ptr
  service : Handler → EntityInit
  attach : E

/-- The storage with the parameters that the program declares. -/
def mainStorage : MyParameter :=
  let storage : MyParameter := {}
  let storage := (storage.declareParameter "arai_int_param" { type := 1, integerValue := 813 }).2
  (storage.declareParameter "arai_bool_param" { type := 0, boolValue := true }).2

/-- The start-up of `main_parameter.cpp`, up to the loop. -/
def mainParameter (R : Rcl E) (u : Startup E) : Except Failure World := do
  let context ← RCLUtils.init u.optionsRet u.initRet u.context
  let node ← MyNode.construct u.node
  let constructed :=
    (MyParameterService.construct Handler.callback (some u.storage) u.service).run.run node
  let _ ← constructed.1.mapError Failure.threw
  let attached := addMyNode R u.attach constructed.2 (MyExecutor.construct context)
  attached.1
  return World.start attached.2 mainStorage

/-- The callbacks in the lists of the executor. -/
def mainPairs (u : Startup E) : EntityKind → List (CallbackPair Callback)
  | .service => Handler.all.map fun h => ⟨(u.service h).handle, h.callback⟩
  | _ => []

/-- A computation that returned went on from a computation that returned. -/
theorem exists_of_bind_eq_ok {ε α β : Type} {x : Except ε α} {f : α → Except ε β} {b : β}
    (h : x >>= f = .ok b) : ∃ a, x = .ok a ∧ f a = .ok b := by
  cases x with
  | error e => cases h
  | ok a => exact ⟨a, rfl, h⟩

theorem init_eq_ok_iff {optionsRet initRet : RclRet} {context context' : Ptr} :
    RCLUtils.init optionsRet initRet context = .ok context' ↔
      optionsRet = .ok ∧ initRet = .ok ∧ context = context' := by
  rw [RCLUtils.init]
  split_ifs with hoptions hinit <;> simp_all

theorem construct_eq_ok_iff {κ : Type} {init : EntityInit} {node : MyNode κ} :
    MyNode.construct init = .ok node ↔ init.ret = .ok ∧ node = { nodeHandle := init.handle } := by
  rw [MyNode.construct]
  split_ifs with hret <;> simp_all [eq_comm]

/-- The constructor of the service returned: all registrations succeeded. -/
theorem construct_service_eq_ok {callback : Handler → Callback} {storage : Ptr}
    {init : Handler → EntityInit} {node : MyNode Callback} {service : MyParameterService}
    (h : ((construct callback (some storage) init).run.run node).1 = .ok service) :
    (∀ h, (init h).ret = .ok) ∧ ((construct callback (some storage) init).run.run node).2 =
      { node with services := node.services ++ servicesOf callback init node Handler.all } := by
  rw [run_construct_some] at h ⊢
  simp only at h ⊢
  split_ifs at h with hall
  have hok (h : Handler) : (init h).ret = .ok := hall h (by cases h <;> simp [Handler.all])
  refine ⟨hok, ?_⟩
  rw [List.takeWhile_eq_self_iff.mpr fun h _ => by simp [hok h]]

/-- If the start-up reaches the loop, no call of `rcl` failed, and the executor has the four
services in the order of their registration, with a wait set for them. -/
theorem mainParameter_ok (hinit : R.InitDocumented) {u : Startup E} {world : World}
    (h : mainParameter R u = .ok world) :
    (u.optionsRet = .ok ∧ u.initRet = .ok ∧ u.node.ret = .ok ∧ ∀ h, (u.service h).ret = .ok) ∧
      (∀ k, world.executor.pairs k = mainPairs u k) ∧ CapacitiesMatch world.executor ∧
      world = World.start world.executor mainStorage := by
  -- each call of the start-up returned
  obtain ⟨context, hcontext, h⟩ := exists_of_bind_eq_ok h
  obtain ⟨hoptions, hrcl, rfl⟩ := init_eq_ok_iff.1 hcontext
  obtain ⟨node, hnode, h⟩ := exists_of_bind_eq_ok h
  obtain ⟨hret, rfl⟩ := construct_eq_ok_iff.1 hnode
  obtain ⟨service, hservice, h⟩ := exists_of_bind_eq_ok h
  obtain ⟨⟨⟩, hattached, h⟩ := exists_of_bind_eq_ok h
  obtain rfl := Except.ok.inj h
  -- the constructor returned, and left the four services on the node
  match hconstruct : ((construct Handler.callback (some u.storage) u.service).run.run
      ({ nodeHandle := u.node.handle } : MyNode Callback)).1 with
  | .error what =>
      rw [hconstruct] at hservice
      cases hservice
  | .ok service' =>
      obtain ⟨hok, hpost⟩ := construct_service_eq_ok hconstruct
      rw [hpost] at hattached ⊢
      refine ⟨⟨hoptions, hrcl, hret, hok⟩, fun k => ?_,
        (waitSet_of_attached hinit hattached).2, rfl⟩
      rw [World.start, pairs_addMyNode, pairs_construct]
      cases k <;> simp [MyNode.pairs, MyNode.getSubscriptions, MyNode.getClients,
        MyNode.getServices, mainPairs, servicesOf, MyNode.entity, Entity.pair]

/-! ### What no request changes for the typed getters -/

/-- Whether a typed getter throws is decided by the stored class. -/
theorem throws_getParameterAs_congr {α : Type} {p q : MyParameter} {n : String}
    (h : storedClass T p n = storedClass T q n) (wanted : UInt8) (what : String)
    (payload : ParameterValue → α) :
    Throws (p.getParameterAs T n wanted what payload) ↔
      Throws (q.getParameterAs T n wanted what payload) := by
  have hundeclared {p : MyParameter} (hp : p.find n = none) :
      Throws (p.getParameterAs T n wanted what payload) := by
    rw [getParameterAs, getParameter_of_find_none hp]
    exact ⟨_, rfl⟩
  rw [storedClass, storedClass] at h
  rcases hp : p.find n with _ | v <;> rcases hq : q.find n with _ | w
  · exact iff_of_true (hundeclared hp) (hundeclared hq)
  -- a declared name and an undeclared one have different classes
  · simp [hp, hq] at h
  · simp [hp, hq] at h
  · rw [hp, hq, Option.map_some, Option.map_some, Option.some.injEq] at h
    rw [throws_getParameterAs_iff hp, throws_getParameterAs_iff hq, h]

/-- What does not throw returns. -/
theorem exists_ok_of_not_throws {α : Type} {r : Except String α} (h : ¬ Throws r) :
    ∃ a, r = .ok a := by
  cases r with
  | error what => exact absurd (throws_error what) h
  | ok a => exact ⟨a, rfl⟩

/-- The values of the declared parameters. -/
theorem find_mainStorage (n : String) :
    mainStorage.find n =
      if n = "arai_bool_param" then some { type := 0, boolValue := true }
      else if n = "arai_int_param" then some { type := 1, integerValue := 813 } else none := by
  -- both declarations find their name undeclared
  have hint := declareParameter_of_find_none (find_empty "arai_int_param")
    { type := 1, integerValue := 813 }
  have hbool := declareParameter_of_find_none
    (p := ({} : MyParameter).assign "arai_int_param" { type := 1, integerValue := 813 })
    (n := "arai_bool_param") (by rw [find_assign_of_ne _ _ (by decide), find_empty])
    { type := 0, boolValue := true }
  simp only [mainStorage, hint, hbool, find_assign, find_empty]
  simp only [eq_comm]

/-- Which entries of a set request the program accepts. -/
theorem storedClass_mainStorage_iff (hT : T.Prescribed) (param : Parameter) :
    storedClass T mainStorage param.name = some (getParameterType T param.value) ↔
      param.name = "arai_int_param" ∧ param.value.type = 1 ∨
        param.name = "arai_bool_param" ∧ param.value.type = 0 := by
  have htag {t : UInt8} (ht : t < 9) (v : ParameterValue) (hv : v.type = t) :
      getParameterType T v = getParameterType T param.value ↔ param.value.type = t := by
    rw [(getParameterType_eq_iff hT v ht).2 hv, eq_comm, getParameterType_eq_iff hT _ ht]
  rw [storedClass, find_mainStorage]
  -- the two declared names, and all others
  by_cases hbool : param.name = "arai_bool_param"
  · simp [hbool, htag (t := 0) (by decide)]
  · by_cases hint : param.name = "arai_int_param"
    · simp [hint, htag (t := 1) (by decide)]
    · simp [hbool, hint]

/-! ### The loop -/

/-- The executor's lists are `pairs`, and its wait set has room for them. -/
structure Serves (pairs : EntityKind → List (CallbackPair Callback)) (s : World) : Prop where
  pairs : ∀ k, s.executor.pairs k = pairs k
  capacities : CapacitiesMatch s.executor

/-- No action of the system changes what the executor serves. -/
theorem Serves.step (hclear : R.ClearDocumented) (hadd : R.AddDocumented)
    (hwait : R.WaitDocumented) {pairs : EntityKind → List (CallbackPair Callback)} {s s' : World}
    {a : ParameterServer.Action E} (h : Serves pairs s) (hstep : World.step R T s a = some s') :
    Serves pairs s' := by
  cases World.effect_of_step hstep with
  | spin e _ _ =>
      exact ⟨fun k => (pairs_spin R e s.executor k).trans (h.pairs k),
        capacitiesMatch_spin hclear hadd hwait e h.capacities⟩
  -- nothing else touches the executor
  | _ => exact ⟨h.pairs, h.capacities⟩

/-- What holds in the loop of `main_parameter.cpp`, in the state `s`. -/
structure MainServes (T : ParameterType) (R : Rcl E) (u : Startup E) (s : World) : Prop where
  /-- The executor serves the four handlers. -/
  handlers : ∀ k, s.executor.pairs k = mainPairs u k
  /-- No spin reads an array of the wait set out of range. -/
  inRange : ∀ e k i, (MyExecutor.spin R e s.executor).1.outcome ≠ .error (.outOfRange k i)
  names : s.storage.getParameterNames = ["arai_bool_param", "arai_int_param"]
  /-- The typed getters of the declared parameters return. -/
  getters : (∃ i, s.storage.getParameterInt T "arai_int_param" = .ok i) ∧
    ∃ b, s.storage.getParameterBool T "arai_bool_param" = .ok b
  /-- A set is accepted exactly for the declared parameters with their type. -/
  sets : ∀ before i resp after, s.history = before ++ .respond i (.setParameters resp) :: after →
    ∃ req, .send i (.setParameters req) ∈ before ∧
      resp.results.map SetParametersResult.successful = req.parameters.map fun param =>
        decide (param.name = "arai_int_param" ∧ param.value.type = 1 ∨
          param.name = "arai_bool_param" ∧ param.value.type = 0)

/-- The typed getters of the declared parameters return as long as the stored classes are those of
the declarations. -/
theorem getters_of_storedClass (hT : T.Prescribed) {storage : MyParameter}
    (h : ∀ n, storedClass T storage n = storedClass T mainStorage n) :
    (∃ i, storage.getParameterInt T "arai_int_param" = .ok i) ∧
      ∃ b, storage.getParameterBool T "arai_bool_param" = .ok b := by
  have hint : ¬ Throws (mainStorage.getParameterInt T "arai_int_param") := by
    rw [(throws_getters_iff hT (by rw [find_mainStorage]; rfl)).2.1]
    simp
  have hbool : ¬ Throws (mainStorage.getParameterBool T "arai_bool_param") := by
    rw [(throws_getters_iff hT (by rw [find_mainStorage]; rfl)).1]
    simp
  exact ⟨exists_ok_of_not_throws fun hthrows =>
      hint ((throws_getParameterAs_congr (h _) _ _ _).1 hthrows),
    exists_ok_of_not_throws fun hthrows =>
      hbool ((throws_getParameterAs_congr (h _) _ _ _).1 hthrows)⟩

/-- If the start-up of `main_parameter.cpp` reaches the loop, then in every run of the program with
any number of clients, whatever they request, whatever gets lost and whatever calls fail: the four
handlers are served and no spin reads a wait-set array out of range; the parameters are those that
the program declared, and their typed getters return; and a set is accepted exactly for them, with
the type they were declared with. -/
theorem mainParameter_serves (hT : T.Prescribed) (hinit : R.InitDocumented)
    (hclear : R.ClearDocumented) (hadd : R.AddDocumented) (hwait : R.WaitDocumented)
    {u : Startup E} {world : World} (hmain : mainParameter R u = .ok world)
    {actions : List (ParameterServer.Action E)} {s : World}
    (h : World.exec R T world actions = some s) : MainServes T R u s := by
  obtain ⟨-, hpairs, hcap, hworld⟩ := mainParameter_ok hinit hmain
  -- the loop starts with the four handlers and no action changes them
  have hserves : Serves (mainPairs u) s := GuardedRun.exec_invariant
    (fun _ t => Serves (mainPairs u) t) ⟨hpairs, hcap⟩
    (fun _ _ _ _ ht hstep => ht.step hclear hadd hwait hstep) h
  rw [hworld] at h
  have hclass := storedClass_exec h
  refine ⟨hserves.pairs, fun e =>
    (dispatchesReady_spin hclear hadd hwait hserves.capacities e).inRange,
    (getParameterNames_congr hclass).trans (by decide),
    getters_of_storedClass hT (congrFun hclass), fun before i resp after heq => ?_⟩
  obtain ⟨request, hsend, hsettled⟩ := exists_request_settled h heq
  -- the response to a set belongs to a set
  match request, hsettled with
  | .setParameters req, hresults =>
      refine ⟨req, hsend, ?_⟩
      rw [show resp.results = _ from hresults, List.map_map]
      refine List.map_congr_left fun param _ => ?_
      rw [Function.comp_apply, Bool.eq_iff_iff, successful_iff, storedClass_mainStorage_iff hT,
        decide_eq_true_iff]

/-- The start-up where nothing fails. -/
def smoothStartup : Startup Environment where
  context := 1
  node := { handle := 2 }
  storage := 3
  service
    | .getParameters => { handle := 11 }
    | .setParameters => { handle := 12 }
    | .listParameters => { handle := 13 }
    | .describeParameters => { handle := 14 }
  attach := {}

/-- A client tries to change the type of one parameter and sets the other. -/
def setBoth : List (ParameterServer.Action Environment) :=
  [.sendRequest 7 12 (.setParameters
      ⟨[⟨"arai_int_param", { type := 2 }⟩, ⟨"arai_bool_param", { type := 0 }⟩]⟩),
    .spin { ready := fun k i => k = .service ∧ i = 1 }, .takeRequest (some 0), .sendResponse .ok]

theorem mainParameter_serves_setBoth :
    ∃ world s, mainParameter Rcl.reference smoothStartup = .ok world ∧
      World.exec Rcl.reference .rclInterfaces world setBoth = some s ∧
      MainServes .rclInterfaces Rcl.reference smoothStartup s := by
  have hmain : ∃ world, mainParameter Rcl.reference smoothStartup = .ok world := ⟨_, rfl⟩
  obtain ⟨world, hworld⟩ := hmain
  have hruns : ((mainParameter Rcl.reference smoothStartup).toOption.bind fun world =>
      World.exec Rcl.reference .rclInterfaces world setBoth).isSome = true := by decide
  rw [hworld] at hruns
  obtain ⟨s, hs⟩ := Option.isSome_iff_exists.1 hruns
  exact ⟨world, s, hworld, hs, mainParameter_serves ParameterType.prescribed_rclInterfaces
    Rcl.reference_initDocumented Rcl.reference_clearDocumented Rcl.reference_addDocumented
    Rcl.reference_waitDocumented hworld hs⟩

end Rclmine
