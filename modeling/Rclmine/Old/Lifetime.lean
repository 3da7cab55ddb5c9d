import Rclmine.Node.Lifetime

/-!
# The lifetime of the old node

The model of `MyNode` as it was before the executor (`old/my_node.cpp`), with the entities of
`old/my_publisher_old.h`, `old/my_subscription_old.h`, `old/my_service_old.h` and
`old/my_client_old.h`. The node owns at most one entity of each kind by a `unique_ptr`; creating
another one destroys the first. A `MySubscription` initialises two handles.

The module introduces:

* `State`, `Call` and `run`: a node with the calls of `rcl` made so far, the `create*` methods, and
  any number of calls of them one after another;
* `lifetime`: the calls of `rcl` from the construction of the node to the end of its destruction;
* `Books`: the balance between the handles initialised, finalised, owned and leaked;
* `FinalisesProperly`: every handle is finalised once and before the node. `MyNode::~MyNode` leaves
  the client to the destruction of the members and `~MySubscription` forgets the second handle, so
  this holds exactly where no client and no handle of a subscription was initialised
  (`lifetime_finalisesProperly_iff`).
-/

namespace Rclmine.Old

/-- A `MyPublisher`, `MyService` or `MyClient`, with the name its handle was initialised with. -/
structure Entity where
  nodeHandle : Ptr
  name : String
  handle : Ptr
  deriving DecidableEq

/-- A `MySubscription`: its second handle is subscribed to `arai_test`. -/
structure MySubscription where
  nodeHandle : Ptr
  name : String
  handle : Ptr
  handle2 : Ptr
  deriving DecidableEq

/-- A `MyNode`: its handle and the members that own the entities. -/
structure MyNode where
  nodeHandle : Ptr
  publisher : Option Entity := none
  subscription : Option MySubscription := none
  service : Option Entity := none
  client : Option Entity := none
  deriving DecidableEq

/-- A node with the calls made so far. A new handle gets the address `nextPtr`, which no handle had
before. -/
structure State where
  node : MyNode
  nextPtr : Ptr := 0
  trace : List RclCall := []
  deriving DecidableEq

/-- A call of `rcl_*_init` for a new handle. -/
def State.init (kind : HandleKind) (ret : RclRet) (s : State) : State :=
  { s with
    nextPtr := s.nextPtr + 1
    trace := s.trace ++ [.init ⟨kind, s.nextPtr⟩ ret] }

/-- A method that may throw; what it did before throwing stays. -/
abbrev NodeM := ExceptT String (StateM State)

/-- A new handle is initialised, unless `rcl_*_init` fails. -/
def initHandle (kind : HandleKind) (what : String) (ret : RclRet) : NodeM Ptr := do
  let s ← get
  set (s.init kind ret)
  if ret ≠ .ok then throw ("Failed to initialize " ++ what)
  return s.nextPtr

/-- The constructors of the entities with one handle. -/
def Entity.construct (kind : HandleKind) (what name : String) (ret : RclRet) : NodeM Entity := do
  let handle ← initHandle kind what ret
  return { nodeHandle := (← get).node.nodeHandle, name, handle }

/-- `MyPublisher::MyPublisher`. -/
def MyPublisher.construct (topicName : String) (ret : RclRet) : NodeM Entity :=
  Entity.construct .publisher "publisher" topicName ret

/-- `MyService::MyService`. -/
def MyService.construct (serviceName : String) (ret : RclRet) : NodeM Entity :=
  Entity.construct .service "service" serviceName ret

/-- `MyClient::MyClient`. -/
def MyClient.construct (serviceName : String) (ret : RclRet) : NodeM Entity :=
  Entity.construct .client "client" serviceName ret

/-- `MySubscription::MySubscription`. -/
def MySubscription.construct (topicName : String) (ret ret2 : RclRet) : NodeM MySubscription := do
  let handle ← initHandle .subscription "subscription" ret
  -- if this throws, the memory of the first handle is freed but the handle is not finalised
  let handle2 ← initHandle .subscription "subscription2" ret2
  return { nodeHandle := (← get).node.nodeHandle, name := topicName, handle, handle2 }

namespace State

/-- `rcl_*_fini`. -/
def fini (kind : HandleKind) (handle : Ptr) (s : State) : State :=
  { s with trace := s.trace ++ [.fini ⟨kind, handle⟩] }

/-- The destructors of the entities with one handle, if there is one to destroy. -/
def destroy (kind : HandleKind) : Option Entity → State → State
  | none, s => s
  | some entity, s => s.fini kind entity.handle

/-- `MySubscription::~MySubscription`, which does not finalise the second handle. -/
def destroySubscription : Option MySubscription → State → State
  | none, s => s
  | some subscription, s => s.fini .subscription subscription.handle

/-- An assignment to `publisher_`: what it owned before is destroyed afterwards. -/
def setPublisher (publisher : Option Entity) (s : State) : State :=
  { s with node := { s.node with publisher } }.destroy .publisher s.node.publisher

/-- An assignment to `subscription_`. -/
def setSubscription (subscription : Option MySubscription) (s : State) : State :=
  { s with node := { s.node with subscription } }.destroySubscription s.node.subscription

/-- An assignment to `service_`. -/
def setService (service : Option Entity) (s : State) : State :=
  { s with node := { s.node with service } }.destroy .service s.node.service

/-- An assignment to `client_`. -/
def setClient (client : Option Entity) (s : State) : State :=
  { s with node := { s.node with client } }.destroy .client s.node.client

/-- `rcl_node_fini`. -/
def nodeFini (s : State) : State :=
  { s with trace := s.trace ++ [.nodeFini] }

end State

namespace MyNode

/-- `MyNode::createPublisher`. -/
def createPublisher (topicName : String) (ret : RclRet) : NodeM Unit := do
  let publisher ← MyPublisher.construct topicName ret
  modify (State.setPublisher (some publisher))

/-- `MyNode::createSubscription`. -/
def createSubscription (topicName : String) (ret ret2 : RclRet) : NodeM Unit := do
  let subscription ← MySubscription.construct topicName ret ret2
  modify (State.setSubscription (some subscription))

/-- `MyNode::createService`. -/
def createService (serviceName : String) (ret : RclRet) : NodeM Unit := do
  let service ← MyService.construct serviceName ret
  modify (State.setService (some service))

/-- `MyNode::createClient`. -/
def createClient (serviceName : String) (ret : RclRet) : NodeM Unit := do
  let client ← MyClient.construct serviceName ret
  modify (State.setClient (some client))

/-- `MyNode::~MyNode` with the destruction of the members. -/
def destroy (s : State) : State :=
  let s := ((s.setPublisher none).setSubscription none).setService none
  -- `client_` is not reset in the body, so it is destroyed after `rcl_node_fini`
  s.nodeFini.setClient none

end MyNode

/-- A call of a `create*` method, with what each `rcl_*_init` in it returns. -/
inductive Call
  | createPublisher (topicName : String) (ret : RclRet)
  | createSubscription (topicName : String) (ret ret2 : RclRet)
  | createService (serviceName : String) (ret : RclRet)
  | createClient (serviceName : String) (ret : RclRet)
  deriving DecidableEq

/-- The method that is called. -/
def Call.method : Call → NodeM Unit
  | .createPublisher topicName ret => MyNode.createPublisher topicName ret
  | .createSubscription topicName ret ret2 => MyNode.createSubscription topicName ret ret2
  | .createService serviceName ret => MyNode.createService serviceName ret
  | .createClient serviceName ret => MyNode.createClient serviceName ret

/-- The node right after `MyNode::MyNode`. -/
def start (nodeHandle : Ptr) : State :=
  { node := { nodeHandle } }

/-- The state after the calls, some of which may throw. -/
def run (s : State) (calls : List Call) : State :=
  calls.foldl (fun s call => (call.method.run.run s).2) s

/-- The calls of `rcl` from the construction of a node to the end of its destruction. -/
def lifetime (nodeHandle : Ptr) (calls : List Call) : List RclCall :=
  (MyNode.destroy (run (start nodeHandle) calls)).trace

/-! ### What the methods do to the state -/

/-- The entity that is built with the next handle. -/
def State.entity (s : State) (name : String) : Entity :=
  { nodeHandle := s.node.nodeHandle, name, handle := s.nextPtr }

/-- The subscription that is built with the next two handles. -/
def State.subscription (s : State) (name : String) : MySubscription :=
  { nodeHandle := s.node.nodeHandle, name, handle := s.nextPtr, handle2 := s.nextPtr + 1 }

/-- A computation goes on after `initHandle` if the handle was initialised. -/
theorem run_initHandle_bind {α : Type} (kind : HandleKind) (what : String) (ret : RclRet)
    (next : Ptr → NodeM α) (s : State) :
    (initHandle kind what ret >>= next).run.run s =
      if ret = .ok then (next s.nextPtr).run.run (s.init kind ret)
      else (.error ("Failed to initialize " ++ what), s.init kind ret) := by
  by_cases h : ret = .ok <;> simp [initHandle, h] <;> rfl

/-- A method that creates an entity with one handle stores it, unless the constructor throws. -/
theorem run_create (kind : HandleKind) (what name : String) (ret : RclRet)
    (assign : Option Entity → State → State) (s : State) :
    ((Entity.construct kind what name ret >>= fun entity =>
        modify (assign (some entity)) : NodeM Unit).run.run s).2 =
      if ret = .ok then assign (some (s.entity name)) (s.init kind ret) else s.init kind ret := by
  rw [Entity.construct, bind_assoc, run_initHandle_bind]
  split_ifs <;> rfl

/-- `createSubscription` stores the subscription if both handles were initialised. -/
theorem run_createSubscription (topicName : String) (ret ret2 : RclRet) (s : State) :
    ((MyNode.createSubscription topicName ret ret2).run.run s).2 =
      if ret = .ok then
        if ret2 = .ok then
          ((s.init .subscription ret).init .subscription ret2).setSubscription
            (some (s.subscription topicName))
        else (s.init .subscription ret).init .subscription ret2
      else s.init .subscription ret := by
  rw [MyNode.createSubscription, MySubscription.construct, bind_assoc, run_initHandle_bind]
  split_ifs with hret hret2
  · rw [bind_assoc, run_initHandle_bind, if_pos hret2]
    rfl
  · rw [bind_assoc, run_initHandle_bind, if_neg hret2]
  · rfl

/-- A run one call longer. -/
theorem run_snoc (s : State) (calls : List Call) (call : Call) :
    run s (calls ++ [call]) = (call.method.run.run (run s calls)).2 := by
  simp [run]

namespace State

variable (s : State)

@[simp] theorem node_init (kind : HandleKind) (ret : RclRet) : (s.init kind ret).node = s.node :=
  rfl

@[simp] theorem node_setPublisher (publisher : Option Entity) :
    (s.setPublisher publisher).node = { s.node with publisher } := by
  rw [setPublisher]
  cases s.node.publisher <;> rfl

@[simp] theorem node_setSubscription (subscription : Option MySubscription) :
    (s.setSubscription subscription).node = { s.node with subscription } := by
  rw [setSubscription]
  cases s.node.subscription <;> rfl

@[simp] theorem node_setService (service : Option Entity) :
    (s.setService service).node = { s.node with service } := by
  rw [setService]
  cases s.node.service <;> rfl

@[simp] theorem node_setClient (client : Option Entity) :
    (s.setClient client).node = { s.node with client } := by
  rw [setClient]
  cases s.node.client <;> rfl

@[simp] theorem nodeFini_mem_init (kind : HandleKind) (ret : RclRet) :
    .nodeFini ∈ (s.init kind ret).trace ↔ .nodeFini ∈ s.trace := by
  simp [init]

@[simp] theorem nodeFini_mem_destroy (kind : HandleKind) (entity : Option Entity) :
    .nodeFini ∈ (s.destroy kind entity).trace ↔ .nodeFini ∈ s.trace := by
  cases entity <;> simp [destroy, fini]

@[simp] theorem nodeFini_mem_destroySubscription (subscription : Option MySubscription) :
    .nodeFini ∈ (s.destroySubscription subscription).trace ↔ .nodeFini ∈ s.trace := by
  cases subscription <;> simp [destroySubscription, fini]

end State

/-! ### The balance of the handles -/

/-- The handles that were initialised, in order. -/
def initialised (trace : List RclCall) : List Handle :=
  trace.filterMap fun
    | .init h .ok => some h
    | _ => none

/-- The handles that were finalised, in order. -/
def finalised (trace : List RclCall) : List Handle :=
  trace.filterMap fun
    | .fini h => some h
    | _ => none

@[simp] theorem initialised_append (trace calls : List RclCall) :
    initialised (trace ++ calls) = initialised trace ++ initialised calls :=
  List.filterMap_append

@[simp] theorem finalised_append (trace calls : List RclCall) :
    finalised (trace ++ calls) = finalised trace ++ finalised calls :=
  List.filterMap_append

theorem mem_initialised {trace : List RclCall} {h : Handle} :
    h ∈ initialised trace ↔ .init h .ok ∈ trace := by
  rw [initialised, List.mem_filterMap]
  constructor
  · rintro ⟨call, hcall, heq⟩
    split at heq
    · obtain rfl := Option.some.inj heq
      exact hcall
    · cases heq
  · exact fun hcall => ⟨_, hcall, rfl⟩

/-- How often a handle was finalised. -/
theorem count_finalised (trace : List RclCall) (h : Handle) :
    (finalised trace).count h = trace.count (.fini h) := by
  induction trace with
  | nil => rfl
  | cons call trace ih =>
      cases call with
      | fini h' =>
          have hcons : finalised (.fini h' :: trace) = h' :: finalised trace := rfl
          rw [hcons, List.count_cons, List.count_cons, ih]
          simp
      | init h' ret =>
          have hcons : finalised (.init h' ret :: trace) = finalised trace := rfl
          rw [hcons, ih, List.count_cons_of_ne (by simp)]
      | nodeFini =>
          have hcons : finalised (.nodeFini :: trace) = finalised trace := rfl
          rw [hcons, ih, List.count_cons_of_ne (by simp)]

/-- The handle of an entity, if there is one. -/
def held (kind : HandleKind) : Option Entity → Multiset Handle
  | none => 0
  | some entity => {⟨kind, entity.handle⟩}

/-- The handle of a subscription that its destructor finalises. -/
def heldFirst : Option MySubscription → Multiset Handle
  | none => 0
  | some subscription => {⟨.subscription, subscription.handle⟩}

/-- The handle of a subscription that its destructor forgets. -/
def heldSecond : Option MySubscription → Multiset Handle
  | none => 0
  | some subscription => {⟨.subscription, subscription.handle2⟩}

namespace State

/-- The handles of the entities that the node owns. -/
def owned (s : State) : Multiset Handle :=
  held .publisher s.node.publisher +
    (heldFirst s.node.subscription + heldSecond s.node.subscription) +
    held .service s.node.service + held .client s.node.client

end State

/-- The handles initialised so far are those finalised, those the node owns and the `loose` ones,
which nobody will finalise unless they become the node's. -/
structure Books (s : State) (loose : Multiset Handle) : Prop where
  fresh : ∀ h ret, .init h ret ∈ s.trace → h.ptr < s.nextPtr
  functional : ∀ h ret ret', .init h ret ∈ s.trace → .init h ret' ∈ s.trace → ret = ret'
  nodup : (initialised s.trace).Nodup
  balance : (initialised s.trace : Multiset Handle) = finalised s.trace + s.owned + loose

variable {s : State} {loose : Multiset Handle}

theorem books_start (nodeHandle : Ptr) : Books (start nodeHandle) 0 where
  fresh := nofun
  functional := nofun
  nodup := List.nodup_nil
  balance := rfl

/-- A new handle is loose if it was initialised. -/
theorem Books.init (h : Books s loose) (kind : HandleKind) (ret : RclRet) :
    Books (s.init kind ret) (if ret = .ok then {⟨kind, s.nextPtr⟩} + loose else loose) := by
  have hnew (ret' : RclRet) : .init ⟨kind, s.nextPtr⟩ ret' ∉ s.trace := fun hmem =>
    lt_irrefl _ (h.fresh _ _ hmem)
  have hmem (x : Handle) (r : RclRet) :
      .init x r ∈ (s.init kind ret).trace ↔
        .init x r ∈ s.trace ∨ x = ⟨kind, s.nextPtr⟩ ∧ r = ret := by
    simp [State.init]
  have hfunctional (x : Handle) (r r' : RclRet) (hx : .init x r ∈ (s.init kind ret).trace)
      (hx' : .init x r' ∈ (s.init kind ret).trace) : r = r' := by
    rcases (hmem x r).1 hx with hx | ⟨heq, hr⟩ <;>
      rcases (hmem x r').1 hx' with hx' | ⟨heq', hr'⟩
    · exact h.functional x r r' hx hx'
    · exact absurd (heq' ▸ hx) (hnew r)
    · exact absurd (heq ▸ hx') (hnew r')
    · exact hr.trans hr'.symm
  have hfresh (x : Handle) (r : RclRet) (hx : .init x r ∈ (s.init kind ret).trace) :
      x.ptr < (s.init kind ret).nextPtr := by
    rcases (hmem x r).1 hx with hx | ⟨rfl, -⟩
    · exact Nat.lt_succ_of_lt (h.fresh x r hx)
    · exact Nat.lt_succ_self _
  have hfin : finalised (s.init kind ret).trace = finalised s.trace := by
    simp [State.init, finalised]
  by_cases hret : ret = .ok
  · -- the handle is counted on both sides, as initialised and as loose
    subst hret
    have hinit : initialised (s.init kind .ok).trace =
        initialised s.trace ++ [⟨kind, s.nextPtr⟩] := by
      simp [State.init, initialised]
    refine ⟨hfresh, hfunctional, ?_, ?_⟩
    · rw [hinit, List.nodup_append_comm, List.singleton_append, List.nodup_cons]
      exact ⟨fun hin => hnew .ok (mem_initialised.1 hin), h.nodup⟩
    · rw [hinit, hfin, if_pos rfl, ← Multiset.coe_add, h.balance, Multiset.coe_singleton]
      have howned : (s.init kind .ok).owned = s.owned := rfl
      rw [howned]
      abel
  · -- a failed initialisation is counted nowhere
    have hinit : initialised (s.init kind ret).trace = initialised s.trace := by
      have hnone : initialised [.init ⟨kind, s.nextPtr⟩ ret] = [] := by
        cases ret <;> first | rfl | exact absurd rfl hret
      rw [State.init, initialised_append, hnone, List.append_nil]
    refine ⟨hfresh, hfunctional, ?_, ?_⟩
    · rw [hinit]
      exact h.nodup
    · rw [hinit, hfin, if_neg hret]
      exact h.balance

/-- Finalising one of the loose handles. -/
theorem Books.fini {kind : HandleKind} {handle : Ptr} (h : Books s ({⟨kind, handle⟩} + loose)) :
    Books (s.fini kind handle) loose := by
  have hmem (x : Handle) (r : RclRet) :
      .init x r ∈ (s.fini kind handle).trace ↔ .init x r ∈ s.trace := by
    simp [State.fini]
  have hinit : initialised (s.fini kind handle).trace = initialised s.trace := by
    simp [State.fini, initialised]
  have hfin : finalised (s.fini kind handle).trace = finalised s.trace ++ [⟨kind, handle⟩] := by
    simp [State.fini, finalised]
  refine ⟨fun x r hx => h.fresh x r ((hmem x r).1 hx),
    fun x r r' hx hx' => h.functional x r r' ((hmem x r).1 hx) ((hmem x r').1 hx'), ?_, ?_⟩
  · rw [hinit]
    exact h.nodup
  · have howned : (s.fini kind handle).owned = s.owned := rfl
    rw [hinit, hfin, howned, h.balance, ← Multiset.coe_add, Multiset.coe_singleton]
    abel

/-- The node gives up one entity for another. -/
theorem Books.exchange {node : MyNode} {loose' : Multiset Handle} (h : Books s loose)
    (hsum : s.owned + loose = { s with node }.owned + loose') : Books { s with node } loose' where
  fresh := h.fresh
  functional := h.functional
  nodup := h.nodup
  balance := by
    change (initialised s.trace : Multiset Handle) = finalised s.trace + _ + _
    rw [h.balance, add_assoc, hsum, add_assoc]

/-- An entity that is not the node's any more is destroyed. -/
theorem Books.destroy {kind : HandleKind} {entity : Option Entity}
    (h : Books s (held kind entity + loose)) : Books (s.destroy kind entity) loose := by
  cases entity with
  | none => simpa [held, State.destroy] using h
  | some entity => exact h.fini

/-- The destruction of a subscription leaves its second handle behind. -/
theorem Books.destroySubscription {subscription : Option MySubscription}
    (h : Books s (heldFirst subscription + loose)) :
    Books (s.destroySubscription subscription) loose := by
  cases subscription with
  | none => simpa [heldFirst, State.destroySubscription] using h
  | some subscription => exact h.fini

theorem Books.setPublisher {publisher : Option Entity}
    (h : Books s (held .publisher publisher + loose)) : Books (s.setPublisher publisher) loose :=
  (h.exchange (by simp only [State.owned]; abel)).destroy

theorem Books.setService {service : Option Entity}
    (h : Books s (held .service service + loose)) : Books (s.setService service) loose :=
  (h.exchange (by simp only [State.owned]; abel)).destroy

theorem Books.setClient {client : Option Entity}
    (h : Books s (held .client client + loose)) : Books (s.setClient client) loose :=
  (h.exchange (by simp only [State.owned]; abel)).destroy

theorem Books.setSubscription {subscription : Option MySubscription}
    (h : Books s (heldFirst subscription + heldSecond subscription + loose)) :
    Books (s.setSubscription subscription) (heldSecond s.node.subscription + loose) :=
  (h.exchange (by simp only [State.owned]; abel)).destroySubscription

/-! ### Runs -/

/-- The call initialises a client. -/
def Call.opensClient : Call → Bool
  | .createClient _ ret => ret = .ok
  | _ => false

/-- The call initialises the first handle of a subscription. -/
def Call.opensSubscription : Call → Bool
  | .createSubscription _ ret _ => ret = .ok
  | _ => false

/-- What holds after every run of calls. -/
structure Tracked (calls : List Call) (s : State) (loose : Multiset Handle) : Prop where
  books : Books s loose
  nodeFini : .nodeFini ∉ s.trace
  client : s.node.client = none ↔ ∀ call ∈ calls, call.opensClient = false
  subscription :
    s.node.subscription = none ∧ loose = 0 ↔ ∀ call ∈ calls, call.opensSubscription = false

theorem tracked_start (nodeHandle : Ptr) : Tracked [] (start nodeHandle) 0 where
  books := books_start nodeHandle
  nodeFini := nofun
  client := by simp [start]
  subscription := by simp [start]

/-- A run one call longer is tracked if the call keeps the books and what it does to the node is
known. -/
theorem Tracked.snoc {calls : List Call} {call : Call} {s' : State} {loose' : Multiset Handle}
    (h : Tracked calls s loose) (hbooks : Books s' loose')
    (hnodeFini : .nodeFini ∈ s'.trace ↔ .nodeFini ∈ s.trace)
    (hclient : s'.node.client = none ↔ s.node.client = none ∧ call.opensClient = false)
    (hsubscription : s'.node.subscription = none ∧ loose' = 0 ↔
      (s.node.subscription = none ∧ loose = 0) ∧ call.opensSubscription = false) :
    Tracked (calls ++ [call]) s' loose' where
  books := hbooks
  nodeFini hmem := h.nodeFini (hnodeFini.1 hmem)
  client := by rw [hclient, h.client, List.forall_mem_append, List.forall_mem_singleton]
  subscription := by
    rw [hsubscription, h.subscription, List.forall_mem_append, List.forall_mem_singleton]

/-- A method that creates an entity with one handle keeps track of the handles. -/
theorem Tracked.create {calls : List Call} (h : Tracked calls s loose) (call : Call)
    (kind : HandleKind) (name : String) (ret : RclRet) {assign : Option Entity → State → State}
    (hbooks : ∀ {t : State} {entity}, Books t (held kind entity + loose) →
      Books (assign entity t) loose)
    (hnodeFini : ∀ entity t, .nodeFini ∈ (assign entity t).trace ↔ .nodeFini ∈ t.trace)
    (hsubscription : ∀ entity t, (assign entity t).node.subscription = t.node.subscription)
    (hclient : (if ret = .ok then (assign (some (s.entity name)) (s.init kind ret)).node.client
      else s.node.client) = none ↔ s.node.client = none ∧ call.opensClient = false)
    (hcall : call.opensSubscription = false) :
    Tracked (calls ++ [call])
      (if ret = .ok then assign (some (s.entity name)) (s.init kind ret) else s.init kind ret)
      loose := by
  have hinit := h.books.init kind ret
  split_ifs at hclient hinit ⊢
  · refine h.snoc (hbooks hinit) ?_ hclient ?_
    · rw [hnodeFini, State.nodeFini_mem_init]
    · rw [hsubscription, State.node_init, hcall, and_iff_left rfl]
  · refine h.snoc hinit (State.nodeFini_mem_init s kind ret) hclient ?_
    rw [State.node_init, hcall, and_iff_left rfl]

/-- `createSubscription` leaves the second handle of the subscription it replaces behind, and the
first handle of its own if it cannot initialise the second. -/
theorem Tracked.createSubscription {calls : List Call} (h : Tracked calls s loose)
    (topicName : String) (ret ret2 : RclRet) :
    ∃ loose', Tracked (calls ++ [.createSubscription topicName ret ret2])
      ((MyNode.createSubscription topicName ret ret2).run.run s).2 loose' := by
  have hinit := h.books.init .subscription ret
  rw [run_createSubscription]
  split_ifs at hinit ⊢ with hret hret2
  · -- the subscription is stored, and the one that was stored before loses its second handle
    have hinit2 := hinit.init .subscription ret2
    rw [if_pos hret2] at hinit2
    have hboth : heldFirst (some (s.subscription topicName)) +
          heldSecond (some (s.subscription topicName)) + loose =
        {⟨.subscription, (s.init .subscription ret).nextPtr⟩} +
          ({⟨.subscription, s.nextPtr⟩} + loose) := by
      simp only [heldFirst, heldSecond, State.subscription, State.init]
      abel
    rw [← hboth] at hinit2
    refine ⟨heldSecond s.node.subscription + loose, h.snoc hinit2.setSubscription ?_ ?_ ?_⟩
    · simp [State.setSubscription]
    · simp [Call.opensClient]
    · simp [Call.opensSubscription, hret]
  · -- the constructor threw after it had initialised the first handle
    have hinit2 := hinit.init .subscription ret2
    rw [if_neg hret2] at hinit2
    refine ⟨_, h.snoc hinit2 (by simp) (by simp [Call.opensClient]) ?_⟩
    simp [Call.opensSubscription, hret]
  · refine ⟨loose, h.snoc hinit (by simp) (by simp [Call.opensClient]) ?_⟩
    simp [Call.opensSubscription, hret]

/-- Every call keeps track of the handles. -/
theorem Tracked.step {calls : List Call} (h : Tracked calls s loose) (call : Call) :
    ∃ loose', Tracked (calls ++ [call]) (call.method.run.run s).2 loose' := by
  cases call with
  | createPublisher topicName ret =>
      have hcreate := h.create (.createPublisher topicName ret) .publisher topicName ret
        Books.setPublisher (fun _ _ => by simp [State.setPublisher]) (fun _ _ => by simp)
        (by simp [Call.opensClient]) rfl
      rw [← run_create .publisher "publisher"] at hcreate
      exact ⟨loose, hcreate⟩
  | createSubscription topicName ret ret2 => exact h.createSubscription topicName ret ret2
  | createService serviceName ret =>
      have hcreate := h.create (.createService serviceName ret) .service serviceName ret
        Books.setService (fun _ _ => by simp [State.setService]) (fun _ _ => by simp)
        (by simp [Call.opensClient]) rfl
      rw [← run_create .service "service"] at hcreate
      exact ⟨loose, hcreate⟩
  | createClient serviceName ret =>
      have hcreate := h.create (.createClient serviceName ret) .client serviceName ret
        Books.setClient (fun _ _ => by simp [State.setClient]) (fun _ _ => by simp)
        (by by_cases hret : ret = .ok <;> simp [Call.opensClient, hret]) rfl
      rw [← run_create .client "client"] at hcreate
      exact ⟨loose, hcreate⟩

/-- Every run is tracked. -/
theorem tracked_run (nodeHandle : Ptr) (calls : List Call) :
    ∃ loose, Tracked calls (run (start nodeHandle) calls) loose := by
  induction calls using List.reverseRecOn with
  | nil => exact ⟨0, tracked_start nodeHandle⟩
  | append_singleton calls call ih =>
      obtain ⟨loose, h⟩ := ih
      rw [run_snoc]
      exact h.step call

/-! ### Finalised once and before the node -/

/-- Every handle that was initialised is finalised once, one that was not is not finalised, and none
is finalised after the node. -/
structure FinalisesProperly (trace : List RclCall) : Prop where
  once : ∀ h, .init h .ok ∈ trace → trace.count (.fini h) = 1
  failed : ∀ h ret, ret ≠ .ok → .init h ret ∈ trace → .fini h ∉ trace
  last : Process.NodeFinalisedLast trace

/-- Nothing but loose handles keeps an initialised handle from being finalised once. -/
theorem Books.once_iff (h : Books s loose) (howned : s.owned = 0) :
    (∀ h, .init h .ok ∈ s.trace → s.trace.count (.fini h) = 1) ↔ loose = 0 := by
  have hcount (x : Handle) :
      (initialised s.trace).count x = s.trace.count (.fini x) + loose.count x := by
    have hbalance := congrArg (Multiset.count x) h.balance
    -- nobody owns anything, so the balance has two summands left
    rw [howned, add_zero, Multiset.count_add, Multiset.coe_count, Multiset.coe_count,
      count_finalised] at hbalance
    exact hbalance
  constructor
  · intro honce
    refine Multiset.eq_zero_of_forall_notMem fun x hx => ?_
    -- a loose handle was initialised, once, so it was not finalised
    have hpos := Multiset.count_pos.2 hx
    have hle := List.nodup_iff_count_le_one.1 h.nodup x
    have hmem : x ∈ initialised s.trace := List.count_pos_iff.1 (by rw [hcount]; omega)
    have hfini := honce x (mem_initialised.1 hmem)
    have hsum := hcount x
    omega
  · rintro rfl x hx
    rw [← List.count_eq_one_of_mem h.nodup (mem_initialised.2 hx), hcount, Multiset.count_zero,
      add_zero]

/-- What was finalised was initialised. -/
theorem Books.not_fini_of_failed (h : Books s loose) {x : Handle} {ret : RclRet} (hret : ret ≠ .ok)
    (hinit : .init x ret ∈ s.trace) : .fini x ∉ s.trace := by
  intro hfini
  have hmem : x ∈ (initialised s.trace : Multiset Handle) := by
    rw [h.balance, add_assoc]
    refine Multiset.mem_add.2 (Or.inl (Multiset.mem_coe.2 ?_))
    exact List.count_pos_iff.1 (by rw [count_finalised]; exact List.count_pos_iff.2 hfini)
  exact hret (h.functional x ret .ok hinit (mem_initialised.1 (Multiset.mem_coe.1 hmem)))

/-- The state in which `~MyNode` calls `rcl_node_fini`: the node owns nothing but the client. -/
def State.closed (s : State) : State :=
  ((s.setPublisher none).setSubscription none).setService none

theorem destroy_eq (s : State) : MyNode.destroy s = s.closed.nodeFini.setClient none := rfl

theorem Books.closed (h : Books s loose) :
    Books s.closed (heldSecond s.node.subscription + loose) := by
  -- the body of the destructor resets three members, and the subscription leaves a handle behind
  have hpublisher : Books (s.setPublisher none) loose :=
    Books.setPublisher (by simpa [held] using h)
  have hloose : Books (s.setPublisher none) (heldFirst none + heldSecond none + loose) := by
    simpa [heldFirst, heldSecond] using hpublisher
  have hsubscription := hloose.setSubscription
  rw [State.node_setPublisher] at hsubscription
  exact Books.setService (by simpa [held] using hsubscription)

theorem Books.nodeFini (h : Books s loose) : Books s.nodeFini loose where
  fresh x r hx := h.fresh x r (by simpa [State.nodeFini] using hx)
  functional x r r' hx hx' :=
    h.functional x r r' (by simpa [State.nodeFini] using hx) (by simpa [State.nodeFini] using hx')
  nodup := by simpa [State.nodeFini, initialised] using h.nodup
  balance := by
    have hinit : initialised s.nodeFini.trace = initialised s.trace := by
      simp [State.nodeFini, initialised]
    have hfin : finalised s.nodeFini.trace = finalised s.trace := by
      simp [State.nodeFini, finalised]
    rw [hinit, hfin]
    exact h.balance

/-- At the end of the destruction nobody owns anything. -/
theorem Books.destroyNode (h : Books s loose) :
    Books (MyNode.destroy s) (heldSecond s.node.subscription + loose) ∧
      (MyNode.destroy s).owned = 0 := by
  have hclosed : Books s.closed.nodeFini
      (held .client none + (heldSecond s.node.subscription + loose)) := by
    simpa [held] using h.closed.nodeFini
  refine ⟨hclosed.setClient, ?_⟩
  have hnode : (MyNode.destroy s).node = { nodeHandle := s.node.nodeHandle } := by
    simp [destroy_eq, State.closed, State.nodeFini]
  simp [State.owned, hnode, held, heldFirst, heldSecond]

/-- The client is finalised after the node. -/
theorem nodeFinalisedLast_destroy (hnofini : .nodeFini ∉ s.trace) :
    Process.NodeFinalisedLast (MyNode.destroy s).trace ↔ s.node.client = none := by
  have hclosed : .nodeFini ∉ s.closed.trace := by
    simpa [State.closed, State.setPublisher, State.setSubscription, State.setService] using hnofini
  have hclient : s.closed.nodeFini.node.client = s.node.client := by
    simp [State.closed, State.nodeFini]
  rw [destroy_eq, State.setClient, hclient]
  cases s.node.client with
  | none => exact iff_of_true (List.noneAfter_snoc_of_not_mem hclosed _) rfl
  | some client =>
      refine iff_of_false (fun hlast => ?_) nofun
      -- the client is finalised right after `rcl_node_fini`
      refine (List.noneAfter_append.1 hlast).2.2 ?_ _ (List.mem_singleton_self _) ⟨_, rfl⟩
      simp [State.nodeFini]

/-- The handles of an old node are finalised properly, whatever is created on it and whatever fails,
if and only if no client and no handle of a subscription is initialised. -/
theorem lifetime_finalisesProperly_iff (nodeHandle : Ptr) (calls : List Call) :
    FinalisesProperly (lifetime nodeHandle calls) ↔
      ∀ call ∈ calls, call.opensClient = false ∧ call.opensSubscription = false := by
  obtain ⟨loose, h⟩ := tracked_run nodeHandle calls
  obtain ⟨hbooks, howned⟩ := h.books.destroyNode
  have hlast := nodeFinalisedLast_destroy h.nodeFini
  -- what is loose in the end: handles of earlier subscriptions and of the last one
  have hloose : heldSecond (run (start nodeHandle) calls).node.subscription + loose = 0 ↔
      ∀ call ∈ calls, call.opensSubscription = false := by
    rw [← h.subscription, add_eq_zero]
    cases (run (start nodeHandle) calls).node.subscription <;> simp [heldSecond]
  rw [lifetime]
  constructor
  · intro hproper call hcall
    exact ⟨h.client.1 (hlast.1 hproper.last) call hcall,
      hloose.1 ((hbooks.once_iff howned).1 hproper.once) call hcall⟩
  · intro hcalls
    exact ⟨(hbooks.once_iff howned).2 (hloose.2 fun call hcall => (hcalls call hcall).2),
      fun x ret hret hinit => hbooks.not_fini_of_failed hret hinit,
      hlast.2 (h.client.2 fun call hcall => (hcalls call hcall).1)⟩

/-- A service that replaces another, and a subscription whose second handle fails. -/
example :
    lifetime 10 [.createService "arai_service" .ok, .createService "other_service" .ok,
        .createSubscription "arai_topic" .ok .error] =
      [.init ⟨.service, 0⟩ .ok, .init ⟨.service, 1⟩ .ok, .fini ⟨.service, 0⟩,
        .init ⟨.subscription, 2⟩ .ok, .init ⟨.subscription, 3⟩ .error, .fini ⟨.service, 1⟩,
        .nodeFini] := by
  decide

end Rclmine.Old
