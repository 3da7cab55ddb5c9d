import Rclmine.Node.Defs
import Rclmine.ToMathlib.GuardedRun
import Rclmine.ToMathlib.NoneAfter

/-!
# The lifetime of a node and its entities

The model of a process that constructs a `MyNode`, creates entities on it, drops the `shared_ptr`s
it got from `createPublisher` and `createClient`, and destroys the node. An entity is owned by the
node's vectors and by the caller's `shared_ptr`s; its destructor runs when the last owner is gone
and calls `rcl_*_fini`. If `rcl_*_init` fails the constructor throws and there is no entity.

The module introduces:

* `Process`, `step` and `exec`: the process, what an action does to it, and its runs. The trace
  records the calls of `rcl_*_init`, `rcl_*_fini` and `rcl_node_fini`;
* `Created` and `Released`: everything an action can do (`step_cases`);
* `Accounted`: the invariant between the trace and the owners;
* `FinalisesProperly`: entities are finalised once and before their node. `MyNode::~MyNode` only
  empties the node's own vectors, so this holds exactly of the runs in which the caller drops no
  handle after the node was destroyed (`finalisesProperly_iff`).
-/

namespace Rclmine

/-- The kinds of handle that are initialised on a node. -/
inductive HandleKind
  | publisher
  | subscription
  | client
  | service
  deriving DecidableEq

/-- The `rcl` handle of an entity. -/
structure Handle where
  kind : HandleKind
  ptr : Ptr
  deriving DecidableEq

/-- A call of `rcl` that initialises or finalises an entity or finalises the node. -/
inductive RclCall
  | init (handle : Handle) (ret : RclRet)
  | fini (handle : Handle)
  | nodeFini
  deriving DecidableEq

/-- An action of the caller. What `rcl_*_init` returns in a `create*` is part of the action. -/
inductive Action (κ : Type)
  | createPublisher (topicName : String) (ret : RclRet)
  | createSubscription (topicName : String) (callback : κ) (ret : RclRet)
  | createClient (serviceName : String) (callback : κ) (ret : RclRet)
  | createService (serviceName : String) (callback : κ) (ret : RclRet)
  | dropPublisher (ptr : Ptr)
  | dropClient (ptr : Ptr)
  | destroyNode
  deriving DecidableEq

/-- Whether the caller drops a handle. -/
def Action.drops {κ : Type} : Action κ → Bool
  | .dropPublisher _ => true
  | .dropClient _ => true
  | _ => false

/-- A node with the handles the caller keeps and the calls made so far. A new entity gets the
address `nextPtr`, which no entity had before. -/
structure Process (κ : Type) where
  node : MyNode κ
  alive : Bool := true
  publishers : List MyPublisher := []
  clients : List (Entity κ) := []
  nextPtr : Ptr := 0
  trace : List RclCall := []

namespace Process

variable {κ : Type}

/-- The handles in the node's subscription vector. -/
def subscriptionHandles (p : Process κ) : List Handle :=
  p.node.subscriptions.map fun entity => ⟨.subscription, entity.handle⟩

/-- The handles in the node's service vector. -/
def serviceHandles (p : Process κ) : List Handle :=
  p.node.services.map fun entity => ⟨.service, entity.handle⟩

/-- The handles in the node's client vector. -/
def clientHandles (p : Process κ) : List Handle :=
  p.node.clients.map fun entity => ⟨.client, entity.handle⟩

/-- The handles the caller keeps. -/
def callerHandles (p : Process κ) : List Handle :=
  p.publishers.map (fun publisher => ⟨.publisher, publisher.handle⟩) ++
    p.clients.map fun entity => ⟨.client, entity.handle⟩

/-- The handles that somebody owns. -/
def owned (p : Process κ) : List Handle :=
  p.subscriptionHandles ++ p.serviceHandles ++ p.clientHandles ++ p.callerHandles

/-- The destructors of those of `handles` that nobody owns any more, each once. -/
def finalise (handles : List Handle) (p : Process κ) : Process κ :=
  { p with trace := p.trace ++ (handles.dedup.filter (· ∉ p.owned)).map .fini }

/-- A `create*` method whose `rcl_*_init` returns `ret`; `keep` stores what it returns. -/
def create {α : Type} (kind : HandleKind) (ret : RclRet) (method : EntityInit → NodeM κ α)
    (keep : α → Process κ → Process κ) (p : Process κ) : Process κ :=
  let (result, node) := (method { handle := p.nextPtr, ret }).run.run p.node
  let p' := { p with
    node
    nextPtr := p.nextPtr + 1
    trace := p.trace ++ [.init ⟨kind, p.nextPtr⟩ ret] }
  match result with
  | .ok a => keep a p'
  -- the constructor threw: no destructor will run for this handle
  | .error _ => p'

/-- `subscriptions_.clear()`. -/
def clearSubscriptions (p : Process κ) : Process κ :=
  { p with node := { p.node with subscriptions := [] } }.finalise p.subscriptionHandles

/-- `services_.clear()`. -/
def clearServices (p : Process κ) : Process κ :=
  { p with node := { p.node with services := [] } }.finalise p.serviceHandles

/-- `clients_.clear()`. -/
def clearClients (p : Process κ) : Process κ :=
  { p with node := { p.node with clients := [] } }.finalise p.clientHandles

/-- `MyNode::~MyNode`. -/
def destroyNode (p : Process κ) : Process κ :=
  -- publishers are not tracked by the node, and shared clients survive the clearing
  let p := p.clearSubscriptions.clearServices.clearClients
  { p with alive := false, trace := p.trace ++ [.nodeFini] }

/-- What an action does, if the caller can take it: the node is used and destroyed while it is alive
and the caller drops handles it keeps. -/
def step (p : Process κ) : Action κ → Option (Process κ)
  | .createPublisher topicName ret =>
      if p.alive then
        some (p.create .publisher ret (MyNode.createPublisher topicName)
          fun publisher p => { p with publishers := p.publishers ++ [publisher] })
      else none
  | .createSubscription topicName callback ret =>
      if p.alive then
        some (p.create .subscription ret (MyNode.createSubscription topicName callback)
          fun _ p => p)
      else none
  | .createClient serviceName callback ret =>
      if p.alive then
        some (p.create .client ret (MyNode.createClient serviceName callback)
          fun client p => { p with clients := p.clients ++ [client] })
      else none
  | .createService serviceName callback ret =>
      if p.alive then
        some (p.create .service ret (MyNode.createService serviceName callback) fun _ p => p)
      else none
  | .dropPublisher ptr =>
      if ptr ∈ p.publishers.map MyPublisher.handle then
        some ({ p with publishers := p.publishers.filter (·.handle ≠ ptr) }.finalise
          [⟨.publisher, ptr⟩])
      else none
  | .dropClient ptr =>
      if ptr ∈ p.clients.map Entity.handle then
        some ({ p with clients := p.clients.filter (·.handle ≠ ptr) }.finalise
          [⟨.client, ptr⟩])
      else none
  | .destroyNode => if p.alive then some p.destroyNode else none

/-- The process right after `MyNode::MyNode`. -/
def start (nodeHandle : Ptr) : Process κ :=
  { node := { nodeHandle } }

/-- The run of the actions from a process. -/
def exec (p : Process κ) (actions : List (Action κ)) : Option (Process κ) :=
  GuardedRun.exec step p actions

/-! ### Everything an action can do -/

variable {p p' q : Process κ}

theorem mem_owned {h : Handle} :
    h ∈ p.owned ↔ h ∈ p.subscriptionHandles ∨ h ∈ p.serviceHandles ∨ h ∈ p.clientHandles ∨
      h ∈ p.callerHandles := by
  simp [owned]

/-- The caller's handles one by one. -/
theorem mem_callerHandles {h : Handle} :
    h ∈ p.callerHandles ↔ (∃ publisher ∈ p.publishers, h = ⟨.publisher, publisher.handle⟩) ∨
      ∃ client ∈ p.clients, h = ⟨.client, client.handle⟩ := by
  simp [callerHandles, eq_comm]

/-- The owners one by one. -/
theorem mem_owned_iff {h : Handle} :
    h ∈ p.owned ↔ (∃ entity ∈ p.node.subscriptions, h = ⟨.subscription, entity.handle⟩) ∨
      (∃ entity ∈ p.node.services, h = ⟨.service, entity.handle⟩) ∨
      (∃ entity ∈ p.node.clients, h = ⟨.client, entity.handle⟩) ∨
      (∃ publisher ∈ p.publishers, h = ⟨.publisher, publisher.handle⟩) ∨
      ∃ client ∈ p.clients, h = ⟨.client, client.handle⟩ := by
  simp [mem_owned, mem_callerHandles, subscriptionHandles, serviceHandles, clientHandles, eq_comm]

/-- An entity was initialised, and has owners if that succeeded. -/
structure Created (p p' : Process κ) (handle : Handle) (ret : RclRet) : Prop where
  alive : p'.alive = p.alive
  ptr : handle.ptr = p.nextPtr
  nextPtr : p'.nextPtr = p.nextPtr + 1
  trace : p'.trace = p.trace ++ [.init handle ret]
  mem_owned : ∀ h, h ∈ p'.owned ↔ h ∈ p.owned ∨ ret = .ok ∧ h = handle

/-- Some handles lost their last owner and were finalised. -/
structure Released (p p' : Process κ) (handles : List Handle) : Prop where
  nodup : handles.Nodup
  nextPtr : p'.nextPtr = p.nextPtr
  trace : p'.trace = p.trace ++ handles.map .fini
  subset : p'.owned ⊆ p.owned
  mem_iff : ∀ h, h ∈ handles ↔ h ∈ p.owned ∧ h ∉ p'.owned

@[simp] theorem owned_finalise (handles : List Handle) (p : Process κ) :
    (p.finalise handles).owned = p.owned := rfl

/-- Finalising what was given up releases it. -/
theorem released_finalise {handles : List Handle} (hnext : q.nextPtr = p.nextPtr)
    (htrace : q.trace = p.trace) (howned : ∀ h, h ∈ p.owned ↔ h ∈ q.owned ∨ h ∈ handles) :
    Released p (q.finalise handles) (handles.dedup.filter (· ∉ q.owned)) where
  nodup := handles.nodup_dedup.filter _
  nextPtr := hnext
  trace := by rw [← htrace]; rfl
  subset h hh := (howned h).2 (Or.inl hh)
  mem_iff h := by
    simp only [List.mem_filter, List.mem_dedup, decide_eq_true_eq, owned_finalise, howned]
    tauto

/-- Two releases one after the other. -/
theorem Released.trans {hs hs' : List Handle} (h : Released p q hs) (h' : Released q p' hs') :
    Released p p' (hs ++ hs') where
  nodup := by
    -- what was released first is not owned when the second release starts
    refine h.nodup.append h'.nodup fun x hx hx' => ?_
    exact ((h.mem_iff x).1 hx).2 ((h'.mem_iff x).1 hx').1
  nextPtr := h'.nextPtr.trans h.nextPtr
  trace := by rw [h'.trace, h.trace, List.map_append, List.append_assoc]
  subset _ hx := h.subset (h'.subset hx)
  mem_iff x := by
    have hsub : x ∈ p'.owned → x ∈ q.owned := fun hx => h'.subset hx
    have hsub' : x ∈ q.owned → x ∈ p.owned := fun hx => h.subset hx
    rw [List.mem_append, h.mem_iff, h'.mem_iff]
    tauto

/-- The node's vectors are empty. -/
structure Vacant (p : Process κ) : Prop where
  subscriptions : p.node.subscriptions = []
  services : p.node.services = []
  clients : p.node.clients = []

/-- A `create*` method that leaves the node alone when it throws, and otherwise stores the entity it
initialised, has one owner more. -/
theorem created_create {α : Type} {kind : HandleKind} {ret : RclRet}
    {method : EntityInit → NodeM κ α} {keep : α → Process κ → Process κ} {what : String} {a : α}
    {node : MyNode κ}
    (h : (if p.alive then some (p.create kind ret method keep) else none) = some p')
    (hrun : (method { handle := p.nextPtr, ret }).run.run p.node =
      if ret = .ok then (.ok a, node) else (.error what, p.node))
    (halive : ∀ q, (keep a q).alive = q.alive) (hnext : ∀ q, (keep a q).nextPtr = q.nextPtr)
    (htrace : ∀ q, (keep a q).trace = q.trace)
    (howned : ∀ nextPtr trace h, h ∈ (keep a { p with node, nextPtr, trace }).owned ↔
      h ∈ p.owned ∨ h = ⟨kind, p.nextPtr⟩) :
    p.alive = true ∧ Created p p' ⟨kind, p.nextPtr⟩ ret := by
  split_ifs at h with hp
  obtain rfl := Option.some.inj h
  refine ⟨hp, ?_⟩
  by_cases hret : ret = .ok
  · -- the entity was constructed and is stored by the node, the caller or both
    subst hret
    have hcreate : p.create kind .ok method keep = keep a { p with
        node
        nextPtr := p.nextPtr + 1
        trace := p.trace ++ [.init ⟨kind, p.nextPtr⟩ .ok] } := by
      rw [create, hrun, if_pos rfl]
    rw [hcreate]
    exact ⟨halive _, rfl, hnext _, htrace _, fun h => by rw [howned]; simp⟩
  · -- the constructor threw: only the call of `rcl_*_init` is left behind
    have hcreate : p.create kind ret method keep = { p with
        nextPtr := p.nextPtr + 1
        trace := p.trace ++ [.init ⟨kind, p.nextPtr⟩ ret] } := by
      rw [create, hrun, if_neg hret]
    rw [hcreate]
    exact ⟨rfl, rfl, rfl, rfl, fun h => by simp [hret]; rfl⟩

/-- Destroying the node releases what only the node owns and finalises the node last. -/
structure Destroyed (p p' : Process κ) (handles : List Handle) : Prop where
  nodup : handles.Nodup
  nextPtr : p'.nextPtr = p.nextPtr
  trace : p'.trace = p.trace ++ handles.map .fini ++ [.nodeFini]
  subset : p'.owned ⊆ p.owned
  mem_iff : ∀ h, h ∈ handles ↔ h ∈ p.owned ∧ h ∉ p'.owned
  vacant : p'.Vacant
  dead : p'.alive = false

/-- Clearing a vector releases the entities the caller does not share. -/
theorem released_clearSubscriptions (p : Process κ) :
    ∃ handles, Released p p.clearSubscriptions handles := by
  refine ⟨_, released_finalise rfl rfl fun h => ?_⟩
  rw [mem_owned, mem_owned]
  change _ ↔ (h ∈ ([] : List Handle) ∨ h ∈ p.serviceHandles ∨ h ∈ p.clientHandles ∨
    h ∈ p.callerHandles) ∨ h ∈ p.subscriptionHandles
  have hnil : h ∉ ([] : List Handle) := List.not_mem_nil
  tauto

theorem released_clearServices (p : Process κ) :
    ∃ handles, Released p p.clearServices handles := by
  refine ⟨_, released_finalise rfl rfl fun h => ?_⟩
  rw [mem_owned, mem_owned]
  change _ ↔ (h ∈ p.subscriptionHandles ∨ h ∈ ([] : List Handle) ∨ h ∈ p.clientHandles ∨
    h ∈ p.callerHandles) ∨ h ∈ p.serviceHandles
  have hnil : h ∉ ([] : List Handle) := List.not_mem_nil
  tauto

theorem released_clearClients (p : Process κ) :
    ∃ handles, Released p p.clearClients handles := by
  refine ⟨_, released_finalise rfl rfl fun h => ?_⟩
  rw [mem_owned, mem_owned]
  change _ ↔ (h ∈ p.subscriptionHandles ∨ h ∈ p.serviceHandles ∨ h ∈ ([] : List Handle) ∨
    h ∈ p.callerHandles) ∨ h ∈ p.clientHandles
  have hnil : h ∉ ([] : List Handle) := List.not_mem_nil
  tauto

/-- The destructor clears the three vectors one after another, then finalises the node. -/
theorem destroyed_destroyNode (p : Process κ) : ∃ handles, Destroyed p p.destroyNode handles := by
  obtain ⟨hs₁, h₁⟩ := released_clearSubscriptions p
  obtain ⟨hs₂, h₂⟩ := released_clearServices p.clearSubscriptions
  obtain ⟨hs₃, h₃⟩ := released_clearClients p.clearSubscriptions.clearServices
  have h := (h₁.trans h₂).trans h₃
  refine ⟨hs₁ ++ hs₂ ++ hs₃, h.nodup, h.nextPtr, ?_, h.subset, h.mem_iff, ⟨rfl, rfl, rfl⟩, rfl⟩
  rw [← h.trace]
  rfl

/-- Dropping a handle releases it, unless the node owns it too. -/
structure Dropped (p p' : Process κ) (handles : List Handle) : Prop
    extends Released p p' handles where
  node : p'.node = p.node
  alive : p'.alive = p.alive
  ne_nil : p.Vacant → handles ≠ []

/-- When the node's vectors are empty, the caller is the only owner. -/
theorem mem_owned_of_vacant (hvacant : p.Vacant) {h : Handle} :
    h ∈ p.owned ↔ h ∈ p.callerHandles := by
  simp [mem_owned, subscriptionHandles, serviceHandles, clientHandles, hvacant.subscriptions,
    hvacant.services, hvacant.clients]

/-- Removing one handle from those the caller keeps. -/
theorem dropped_finalise {handle : Handle} (hnext : q.nextPtr = p.nextPtr)
    (htrace : q.trace = p.trace) (hnode : q.node = p.node) (halive : q.alive = p.alive)
    (hheld : handle ∈ p.callerHandles)
    (hcaller : ∀ h, h ∈ q.callerHandles ↔ h ∈ p.callerHandles ∧ h ≠ handle) :
    Dropped p (q.finalise [handle]) ([handle].dedup.filter (· ∉ q.owned)) where
  toReleased := released_finalise hnext htrace fun h => by
    have hsub : q.subscriptionHandles = p.subscriptionHandles := by
      rw [subscriptionHandles, hnode, subscriptionHandles]
    have hsrv : q.serviceHandles = p.serviceHandles := by
      rw [serviceHandles, hnode, serviceHandles]
    have hcli : q.clientHandles = p.clientHandles := by
      rw [clientHandles, hnode, clientHandles]
    rw [mem_owned, mem_owned, hsub, hsrv, hcli, hcaller, List.mem_singleton]
    -- only the dropped handle can lose an owner
    by_cases heq : h = handle
    · subst heq
      tauto
    · tauto
  node := hnode
  alive := halive
  ne_nil hvacant := by
    have hvacant' : q.Vacant :=
      ⟨by rw [hnode, hvacant.subscriptions], by rw [hnode, hvacant.services],
        by rw [hnode, hvacant.clients]⟩
    -- nobody else owns the handle, so it is among those finalised
    refine List.ne_nil_of_mem (a := handle) ?_
    simp [mem_owned_of_vacant hvacant', hcaller]

/-- Dropping a publisher: the caller was its only owner. -/
theorem dropped_dropPublisher {ptr : Ptr} (h : step p (.dropPublisher ptr) = some p') :
    ∃ handles, Dropped p p' handles := by
  rw [step] at h
  split_ifs at h with hheld
  obtain rfl := Option.some.inj h
  refine ⟨_, dropped_finalise rfl rfl rfl rfl (by simpa [callerHandles] using hheld) fun h => ?_⟩
  simp only [mem_callerHandles, List.mem_filter, decide_eq_true_eq]
  constructor
  · rintro (⟨publisher, ⟨hmem, hne⟩, rfl⟩ | ⟨client, hmem, rfl⟩)
    · exact ⟨Or.inl ⟨publisher, hmem, rfl⟩, by simpa using hne⟩
    · exact ⟨Or.inr ⟨client, hmem, rfl⟩, by simp⟩
  · rintro ⟨⟨publisher, hmem, rfl⟩ | hclient, hne⟩
    · exact Or.inl ⟨publisher, ⟨hmem, by simpa using hne⟩, rfl⟩
    · exact Or.inr hclient

/-- Dropping a client: the node may own it too. -/
theorem dropped_dropClient {ptr : Ptr} (h : step p (.dropClient ptr) = some p') :
    ∃ handles, Dropped p p' handles := by
  rw [step] at h
  split_ifs at h with hheld
  obtain rfl := Option.some.inj h
  refine ⟨_, dropped_finalise rfl rfl rfl rfl (by simpa [callerHandles] using hheld) fun h => ?_⟩
  simp only [mem_callerHandles, List.mem_filter, decide_eq_true_eq]
  constructor
  · rintro (⟨publisher, hmem, rfl⟩ | ⟨client, ⟨hmem, hne⟩, rfl⟩)
    · exact ⟨Or.inl ⟨publisher, hmem, rfl⟩, by simp⟩
    · exact ⟨Or.inr ⟨client, hmem, rfl⟩, by simpa using hne⟩
  · rintro ⟨hpublisher | ⟨client, hmem, rfl⟩, hne⟩
    · exact Or.inl hpublisher
    · exact Or.inr ⟨client, ⟨hmem, by simpa using hne⟩, rfl⟩

/-- Everything an action can do: initialise an entity on the living node, destroy the node, or
drop a handle. -/
theorem step_cases {a : Action κ} (h : step p a = some p') :
    (a ≠ .destroyNode ∧ a.drops = false ∧ p.alive = true ∧
        ∃ handle ret, Created p p' handle ret) ∨
      (a = .destroyNode ∧ p.alive = true ∧ ∃ handles, Destroyed p p' handles) ∨
      (a.drops = true ∧ ∃ handles, Dropped p p' handles) := by
  cases a with
  -- the `create*` methods differ in where the new entity is stored
  | createPublisher topicName ret =>
      have hcreated := created_create h (p.node.run_createPublisher topicName _) (fun _ => rfl)
        (fun _ => rfl) (fun _ => rfl) fun _ _ h => by
          simp [mem_owned_iff, or_and_right, exists_or, or_assoc, or_comm]
      exact Or.inl ⟨nofun, rfl, hcreated.1, _, _, hcreated.2⟩
  | createSubscription topicName callback ret =>
      have hcreated := created_create h (p.node.run_createSubscription topicName callback _)
        (fun _ => rfl) (fun _ => rfl) (fun _ => rfl) fun _ _ h => by
          simp [mem_owned_iff, MyNode.entity, or_and_right, exists_or, or_assoc, or_comm,
            or_left_comm]
      exact Or.inl ⟨nofun, rfl, hcreated.1, _, _, hcreated.2⟩
  | createClient serviceName callback ret =>
      have hcreated := created_create h (p.node.run_createClient serviceName callback _)
        (fun _ => rfl) (fun _ => rfl) (fun _ => rfl) fun _ _ h => by
          simp [mem_owned_iff, MyNode.entity, or_and_right, exists_or, or_assoc, or_comm,
            or_left_comm]
      exact Or.inl ⟨nofun, rfl, hcreated.1, _, _, hcreated.2⟩
  | createService serviceName callback ret =>
      have hcreated := created_create h (p.node.run_createService serviceName callback _)
        (fun _ => rfl) (fun _ => rfl) (fun _ => rfl) fun _ _ h => by
          simp [mem_owned_iff, MyNode.entity, or_and_right, exists_or, or_assoc, or_comm,
            or_left_comm]
      exact Or.inl ⟨nofun, rfl, hcreated.1, _, _, hcreated.2⟩
  | dropPublisher ptr => exact Or.inr (Or.inr ⟨rfl, dropped_dropPublisher h⟩)
  | dropClient ptr => exact Or.inr (Or.inr ⟨rfl, dropped_dropClient h⟩)
  | destroyNode =>
      rw [step] at h
      split_ifs at h with halive
      obtain rfl := Option.some.inj h
      exact Or.inr (Or.inl ⟨rfl, halive, destroyed_destroyNode p⟩)

/-! ### The trace and the owners -/

/-- The invariant between a trace and the owners: an address is initialised once, what is owned was
initialised successfully, and a handle was finalised once if it was initialised successfully and is
not owned any more, otherwise never. -/
structure Accounted (nextPtr : Ptr) (owned : List Handle) (trace : List RclCall) : Prop where
  fresh : ∀ h ret, .init h ret ∈ trace → h.ptr < nextPtr
  functional : ∀ h ret ret', .init h ret ∈ trace → .init h ret' ∈ trace → ret = ret'
  initialised : ∀ h ∈ owned, .init h .ok ∈ trace
  count_fini : ∀ h, trace.count (.fini h) = if .init h .ok ∈ trace ∧ h ∉ owned then 1 else 0

/-- The address of a new entity occurs in no earlier call. -/
theorem Accounted.not_mem_of_created {handle : Handle} {ret : RclRet}
    (h : Accounted p.nextPtr p.owned p.trace) (hc : Created p p' handle ret) (ret' : RclRet) :
    .init handle ret' ∉ p.trace := by
  intro hmem
  have hlt := h.fresh handle ret' hmem
  rw [hc.ptr] at hlt
  exact lt_irrefl _ hlt

/-- Initialising an entity keeps the books, whether it succeeds or not. -/
theorem Accounted.created {handle : Handle} {ret : RclRet}
    (h : Accounted p.nextPtr p.owned p.trace) (hc : Created p p' handle ret) :
    Accounted p'.nextPtr p'.owned p'.trace := by
  have hnew := h.not_mem_of_created hc
  have hmem (x : Handle) (r : RclRet) :
      .init x r ∈ p'.trace ↔ .init x r ∈ p.trace ∨ x = handle ∧ r = ret := by
    rw [hc.trace, List.mem_append, List.mem_singleton, RclCall.init.injEq]
  refine ⟨fun x r hx => ?_, fun x r r' hx hx' => ?_, fun x hx => ?_, fun x => ?_⟩
  · rw [hc.nextPtr]
    rcases (hmem x r).1 hx with hx | ⟨rfl, -⟩
    · exact Nat.lt_succ_of_lt (h.fresh x r hx)
    · rw [hc.ptr]
      exact Nat.lt_succ_self _
  · rcases (hmem x r).1 hx with hx | ⟨rfl, rfl⟩ <;>
      rcases (hmem x r').1 hx' with hx' | ⟨hx', hr'⟩
    · exact h.functional x r r' hx hx'
    · exact absurd (hx' ▸ hx) (hnew r)
    · exact absurd hx' (hnew r')
    · exact hr'.symm
  · rcases (hc.mem_owned x).1 hx with hx | ⟨hret, rfl⟩
    · exact (hmem x .ok).2 (Or.inl (h.initialised x hx))
    · exact (hmem x .ok).2 (Or.inr ⟨rfl, hret.symm⟩)
  · have hcount : p'.trace.count (.fini x) = p.trace.count (.fini x) := by
      simp [hc.trace, List.count_append]
    rw [hcount, h.count_fini]
    simp only [hmem, hc.mem_owned]
    by_cases hx : x = handle
    · -- the new entity: owned if it was initialised, and never finalised before
      subst hx
      by_cases hret : ret = .ok
      · simp [hret, hnew]
      · simp [hnew, Ne.symm hret]
    · simp [hx]

/-- Finalising what lost its last owner keeps the books. -/
theorem Accounted.release {nextPtr : Ptr} {owned owned' handles : List Handle}
    {trace : List RclCall} (h : Accounted nextPtr owned trace) (hnodup : handles.Nodup)
    (hsub : owned' ⊆ owned) (hhandles : ∀ x, x ∈ handles ↔ x ∈ owned ∧ x ∉ owned') :
    Accounted nextPtr owned' (trace ++ handles.map .fini) := by
  have hmem (x : Handle) (r : RclRet) :
      .init x r ∈ trace ++ handles.map .fini ↔ .init x r ∈ trace := by
    simp
  refine ⟨fun x r hx => h.fresh x r ((hmem x r).1 hx), fun x r r' hx hx' => ?_, fun x hx => ?_,
    fun x => ?_⟩
  · exact h.functional x r r' ((hmem x r).1 hx) ((hmem x r').1 hx')
  · exact (hmem x .ok).2 (h.initialised x (hsub hx))
  · have hinj : Function.Injective RclCall.fini := fun _ _ heq => RclCall.fini.inj heq
    have hcount : (handles.map RclCall.fini).count (.fini x) = if x ∈ handles then 1 else 0 := by
      rw [List.count_map_of_injective _ _ hinj, hnodup.count]
    rw [List.count_append, hcount, h.count_fini]
    simp only [hmem, hhandles]
    by_cases howned : x ∈ owned
    · -- not finalised before, and now if it has no owner left
      simp [howned, h.initialised x howned]
    · have howned' : x ∉ owned' := fun hx => howned (hsub hx)
      simp [howned, howned']

/-- `rcl_node_fini` is neither an initialisation nor a finalisation of an entity. -/
theorem Accounted.nodeFini {nextPtr : Ptr} {owned : List Handle} {trace : List RclCall}
    (h : Accounted nextPtr owned trace) : Accounted nextPtr owned (trace ++ [.nodeFini]) where
  fresh x r hx := h.fresh x r (by simpa using hx)
  functional x r r' hx hx' := h.functional x r r' (by simpa using hx) (by simpa using hx')
  initialised x hx := List.mem_append_left _ (h.initialised x hx)
  count_fini x := by simp [List.count_append, h.count_fini]

/-! ### Runs -/

/-- No entity is finalised after the node. -/
def NodeFinalisedLast (trace : List RclCall) : Prop :=
  trace.NoneAfter .nodeFini fun call => ∃ h, call = .fini h

/-- The caller drops no handle after destroying the node. -/
def DropsBeforeDestroy (actions : List (Action κ)) : Prop :=
  actions.NoneAfter .destroyNode fun a => a.drops = true

/-- What holds after every run of a process. -/
structure Tracked (actions : List (Action κ)) (p : Process κ) : Prop where
  accounted : Accounted p.nextPtr p.owned p.trace
  alive_iff : p.alive = true ↔ .destroyNode ∉ actions
  nodeFini_iff : .nodeFini ∈ p.trace ↔ .destroyNode ∈ actions
  vacant : .destroyNode ∈ actions → p.Vacant
  order_iff : NodeFinalisedLast p.trace ↔ DropsBeforeDestroy actions

theorem tracked_start (nodeHandle : Ptr) : Tracked [] (start nodeHandle : Process κ) where
  accounted := ⟨nofun, nofun, nofun, fun h => by simp [start]⟩
  alive_iff := by simp [start]
  nodeFini_iff := by simp [start]
  vacant := nofun
  order_iff := iff_of_true List.Pairwise.nil List.Pairwise.nil

/-- Creating an entity on the living node. -/
theorem Tracked.created {actions : List (Action κ)} {a : Action κ} {handle : Handle} {ret : RclRet}
    (h : Tracked actions p) (hne : a ≠ .destroyNode) (halive : p.alive = true)
    (hc : Created p p' handle ret) : Tracked (actions ++ [a]) p' := by
  have hnever : .destroyNode ∉ actions := h.alive_iff.1 halive
  have hnofini : .nodeFini ∉ p.trace := fun hmem => hnever (h.nodeFini_iff.1 hmem)
  have hactions : .destroyNode ∈ actions ++ [a] ↔ False := by simp [hnever, hne.symm]
  have htrace : .nodeFini ∈ p'.trace ↔ False := by simp [hc.trace, hnofini]
  refine ⟨h.accounted.created hc, ?_, ?_, ?_, ?_⟩
  · simp [hc.alive, halive, hnever, hne.symm]
  · rw [htrace, hactions]
  · exact fun hmem => (hactions.1 hmem).elim
  · -- the node was neither finalised nor destroyed, so there is nothing to come after
    exact iff_of_true (List.noneAfter_of_not_mem htrace.1) (List.noneAfter_of_not_mem hactions.1)

/-- Destroying the node: everything it finalises comes before `rcl_node_fini`. -/
theorem Tracked.destroyed {actions : List (Action κ)} {handles : List Handle}
    (h : Tracked actions p) (halive : p.alive = true) (hd : Destroyed p p' handles) :
    Tracked (actions ++ [.destroyNode]) p' := by
  have hnever : .destroyNode ∉ actions := h.alive_iff.1 halive
  have hnofini : .nodeFini ∉ p.trace ++ handles.map .fini := by
    simpa using fun hmem => hnever (h.nodeFini_iff.1 hmem)
  refine ⟨?_, ?_, ?_, fun _ => hd.vacant, ?_⟩
  · rw [hd.nextPtr, hd.trace]
    exact (h.accounted.release hd.nodup hd.subset hd.mem_iff).nodeFini
  · simp [hd.dead]
  · simp [hd.trace]
  · rw [NodeFinalisedLast, hd.trace]
    exact iff_of_true (List.noneAfter_snoc_of_not_mem hnofini _)
      (List.noneAfter_snoc_of_not_mem hnever _)

/-- Dropping a handle: in time while the node is alive, too late afterwards. -/
theorem Tracked.dropped {actions : List (Action κ)} {a : Action κ} {handles : List Handle}
    (h : Tracked actions p) (hdrop : a.drops = true) (hd : Dropped p p' handles) :
    Tracked (actions ++ [a]) p' := by
  have hne : a ≠ .destroyNode := by
    rintro rfl
    cases hdrop
  have hmem : .destroyNode ∈ actions ++ [a] ↔ .destroyNode ∈ actions := by simp [hne.symm]
  refine ⟨?_, ?_, ?_, fun hdead => ?_, ?_⟩
  · rw [hd.nextPtr, hd.trace]
    exact h.accounted.release hd.nodup hd.subset hd.mem_iff
  · rw [hd.alive, h.alive_iff, hmem]
  · rw [hmem, ← h.nodeFini_iff, hd.trace]
    simp
  · have hvacant := h.vacant (hmem.1 hdead)
    exact ⟨by rw [hd.node, hvacant.subscriptions], by rw [hd.node, hvacant.services],
      by rw [hd.node, hvacant.clients]⟩
  · rw [NodeFinalisedLast, hd.trace]
    by_cases hdead : .destroyNode ∈ actions
    · -- the dropped handle had no other owner, so it is finalised after the node
      obtain ⟨handle, hhandle⟩ := List.exists_mem_of_ne_nil _ (hd.ne_nil (h.vacant hdead))
      refine iff_of_false (fun htrace => ?_) fun hactions => ?_
      · exact (List.noneAfter_append.1 htrace).2.2 (h.nodeFini_iff.2 hdead) _
          (List.mem_map_of_mem hhandle) ⟨handle, rfl⟩
      · exact (List.noneAfter_append.1 hactions).2.2 hdead a (List.mem_singleton_self a) hdrop
    · have hnofini : .nodeFini ∉ p.trace ++ handles.map .fini := by
        simpa using fun hfini => hdead (h.nodeFini_iff.1 hfini)
      exact iff_of_true (List.noneAfter_of_not_mem hnofini)
        (List.noneAfter_of_not_mem fun hactions => hdead (hmem.1 hactions))

/-- Every action keeps track of the process. -/
theorem Tracked.step {actions : List (Action κ)} {a : Action κ} (h : Tracked actions p)
    (hstep : p.step a = some p') : Tracked (actions ++ [a]) p' := by
  rcases step_cases hstep with ⟨hne, -, halive, handle, ret, hc⟩ | ⟨rfl, halive, handles, hd⟩ |
    ⟨hdrop, handles, hd⟩
  · exact h.created hne halive hc
  · exact h.destroyed halive hd
  · exact h.dropped hdrop hd

/-- Every run is tracked. -/
theorem tracked_exec (nodeHandle : Ptr) (actions : List (Action κ))
    (h : exec (start nodeHandle) actions = some p) : Tracked actions p :=
  GuardedRun.exec_invariant Tracked (tracked_start nodeHandle)
    (fun _ _ _ _ ht hstep => ht.step hstep) h

/-! ### Finalised once and before the node -/

/-- Every entity whose initialisation succeeded and that nobody owns any more is finalised once, one
that is still owned or whose initialisation failed is not finalised, and none is finalised after the
node. -/
structure FinalisesProperly (p : Process κ) : Prop where
  once : ∀ h, .init h .ok ∈ p.trace → h ∉ p.owned → p.trace.count (.fini h) = 1
  kept : ∀ h ∈ p.owned, .fini h ∉ p.trace
  failed : ∀ h ret, ret ≠ .ok → .init h ret ∈ p.trace → .fini h ∉ p.trace
  last : NodeFinalisedLast p.trace

/-- The entities of a run are finalised properly if and only if the caller drops no handle after
destroying the node. -/
theorem finalisesProperly_iff (nodeHandle : Ptr) (actions : List (Action κ))
    (h : exec (start nodeHandle) actions = some p) :
    FinalisesProperly p ↔ DropsBeforeDestroy actions := by
  have ht := tracked_exec nodeHandle actions h
  refine ⟨fun hp => ht.order_iff.1 hp.last, fun hdrops => ⟨fun x hinit hreleased => ?_,
    fun x howned => ?_, fun x ret hret hinit => ?_, ht.order_iff.2 hdrops⟩⟩
  -- what the drops after the destruction decide is the order only; the counts always come out
  · rw [ht.accounted.count_fini, if_pos ⟨hinit, hreleased⟩]
  · rw [← List.count_eq_zero, ht.accounted.count_fini, if_neg (fun hx => hx.2 howned)]
  · have hnot : .init x .ok ∉ p.trace := fun hok =>
      hret (ht.accounted.functional x ret .ok hinit hok)
    rw [← List.count_eq_zero, ht.accounted.count_fini, if_neg (fun hx => hnot hx.1)]

/-- A caller that drops its publisher and then destroys the node. -/
def scopedActions : List (Action String) :=
  [.createPublisher "topic" .ok, .createClient "add_two_ints" "callback" .ok,
    .createService "add_two_ints" "callback" .error, .dropPublisher 0, .destroyNode]

theorem finalisesProperly_iff_scoped :
    ∃ p, exec (start 10) scopedActions = some p ∧
      (FinalisesProperly p ↔ DropsBeforeDestroy scopedActions) :=
  ⟨_, rfl, finalisesProperly_iff 10 scopedActions rfl⟩

/-- A publisher that outlives its node is finalised after it. -/
theorem not_finalisesProperly_publisher :
    ∃ p : Process String, exec (start 10)
        [.createPublisher "topic" .ok, .destroyNode, .dropPublisher 0] = some p ∧
      p.trace = [.init ⟨.publisher, 0⟩ .ok, .nodeFini, .fini ⟨.publisher, 0⟩] ∧
      ¬ FinalisesProperly p := by
  have htrace : ¬ NodeFinalisedLast
      [.init ⟨.publisher, 0⟩ .ok, .nodeFini, .fini ⟨.publisher, 0⟩] := by
    simp [NodeFinalisedLast, List.NoneAfter]
  exact ⟨_, rfl, by decide, fun h => htrace h.last⟩

end Process

end Rclmine
