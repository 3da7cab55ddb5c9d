import Rclmine.Rcl.WaitSet

/-!
# Nodes and their entities

The model of `MyNode` (`my_node.h`) and of the entities created on it: `MyPublisher`,
`MySubscription`, `MyClient` and `MyService`. A subscription, a client and a service keep the
address of their `rcl` handle and the callback they were created with; a publisher has no callback.
`κ` is the type of callbacks.

The allocator and the `rcl_*_init` functions are outside the repository. What they answer while an
entity is constructed is an input: the address of the handle and the return code.
-/

namespace Rclmine

/-- The address of the handle of a new entity and what its `rcl_*_init` returns. -/
structure EntityInit where
  handle : Ptr
  ret : RclRet := .ok

/-- A handle with the callback it was registered with: `SubscriptionCallbackPair`,
`ServiceClientCallbackPair` and `ServiceCallbackPair`, which differ in the type of the handle. -/
structure CallbackPair (κ : Type) where
  handle : Ptr
  callback : κ
  deriving DecidableEq

/-- A `MySubscription`, `MyClient` or `MyService`, with the topic or service name its handle was
initialised with. -/
structure Entity (κ : Type) where
  nodeHandle : Ptr
  name : String
  handle : Ptr
  callback : κ
  deriving DecidableEq

/-- A `MyPublisher`, with the topic name its handle was initialised with. -/
structure MyPublisher where
  nodeHandle : Ptr
  name : String
  handle : Ptr
  deriving DecidableEq

variable {κ : Type}

/-- The constructors of the entities with a callback throw if `rcl_*_init` fails. -/
def Entity.construct (what : String) (nodeHandle : Ptr) (name : String) (callback : κ)
    (init : EntityInit) : Except String (Entity κ) :=
  if init.ret ≠ .ok then .error ("Failed to initialize " ++ what)
  else .ok { nodeHandle, name, handle := init.handle, callback }

/-- `MySubscription::MySubscription`. -/
def MySubscription.construct (nodeHandle : Ptr) (topicName : String) (callback : κ)
    (init : EntityInit) : Except String (Entity κ) :=
  Entity.construct "subscription" nodeHandle topicName callback init

/-- `MyClient::MyClient`. -/
def MyClient.construct (nodeHandle : Ptr) (serviceName : String) (callback : κ)
    (init : EntityInit) : Except String (Entity κ) :=
  Entity.construct "client" nodeHandle serviceName callback init

/-- `MyService::MyService`. -/
def MyService.construct (nodeHandle : Ptr) (serviceName : String) (callback : κ)
    (init : EntityInit) : Except String (Entity κ) :=
  Entity.construct "service" nodeHandle serviceName callback init

/-- `MyPublisher::MyPublisher`. -/
def MyPublisher.construct (nodeHandle : Ptr) (topicName : String) (init : EntityInit) :
    Except String MyPublisher :=
  if init.ret ≠ .ok then .error "Failed to initialize publisher"
  else .ok { nodeHandle, name := topicName, handle := init.handle }

/-- `getSubscription`, `getClient` and `getService` of an entity. -/
def Entity.pair (entity : Entity κ) : CallbackPair κ :=
  { handle := entity.handle, callback := entity.callback }

/-- A `MyNode`: its handle and the vectors of the entities it owns. -/
structure MyNode (κ : Type) where
  nodeHandle : Ptr
  subscriptions : List (Entity κ) := []
  services : List (Entity κ) := []
  clients : List (Entity κ) := []

/-- A method of `MyNode` that may throw; what it did to the node before throwing stays. -/
abbrev NodeM (κ : Type) := ExceptT String (StateM (MyNode κ))

namespace MyNode

/-- `MyNode::createPublisher`: the node keeps nothing of the publisher. -/
def createPublisher (topicName : String) (init : EntityInit) : NodeM κ MyPublisher := do
  let node ← get
  let publisher ← ofExcept (MyPublisher.construct node.nodeHandle topicName init)
  return publisher

/-- `MyNode::createSubscription`. -/
def createSubscription (topicName : String) (callback : κ) (init : EntityInit) :
    NodeM κ Unit := do
  let node ← get
  -- the constructor may throw, before anything is stored
  let subscription ←
    ofExcept (MySubscription.construct node.nodeHandle topicName callback init)
  set { node with subscriptions := node.subscriptions ++ [subscription] }

/-- `MyNode::createClient`: the new client is owned by the node and by the caller. -/
def createClient (serviceName : String) (callback : κ) (init : EntityInit) :
    NodeM κ (Entity κ) := do
  let node ← get
  let client ← ofExcept (MyClient.construct node.nodeHandle serviceName callback init)
  set { node with clients := node.clients ++ [client] }
  return client

/-- `MyNode::createService`. -/
def createService (serviceName : String) (callback : κ) (init : EntityInit) :
    NodeM κ Unit := do
  let node ← get
  let service ← ofExcept (MyService.construct node.nodeHandle serviceName callback init)
  set { node with services := node.services ++ [service] }

/-- `MyNode::getSubscriptions`. -/
def getSubscriptions (node : MyNode κ) : List (CallbackPair κ) :=
  node.subscriptions.map Entity.pair

/-- `MyNode::getClients`. -/
def getClients (node : MyNode κ) : List (CallbackPair κ) :=
  node.clients.map Entity.pair

/-- `MyNode::getServices`. -/
def getServices (node : MyNode κ) : List (CallbackPair κ) :=
  node.services.map Entity.pair

/-- The node's entities of a kind, as the executor gets them. -/
def pairs (node : MyNode κ) : EntityKind → List (CallbackPair κ)
  | .subscription => node.getSubscriptions
  | .client => node.getClients
  | .service => node.getServices

/-! ### What the methods do to the node -/

variable (node : MyNode κ) (name : String) (callback : κ) (init : EntityInit)

/-- The entity a constructor with the answers `init` builds on `node`. -/
def entity : Entity κ :=
  { nodeHandle := node.nodeHandle, name, handle := init.handle, callback }

theorem run_createPublisher :
    (createPublisher name init).run.run node =
      if init.ret = .ok then
        (.ok { nodeHandle := node.nodeHandle, name, handle := init.handle }, node)
      else (.error "Failed to initialize publisher", node) := by
  by_cases h : init.ret = .ok <;> simp [createPublisher, MyPublisher.construct, h] <;> rfl

theorem run_createSubscription :
    (createSubscription name callback init).run.run node =
      if init.ret = .ok then
        (.ok (), { node with
          subscriptions := node.subscriptions ++ [node.entity name callback init] })
      else (.error "Failed to initialize subscription", node) := by
  by_cases h : init.ret = .ok <;>
    simp [createSubscription, MySubscription.construct, Entity.construct, h] <;> rfl

theorem run_createClient :
    (createClient name callback init).run.run node =
      if init.ret = .ok then
        (.ok (node.entity name callback init),
          { node with clients := node.clients ++ [node.entity name callback init] })
      else (.error "Failed to initialize client", node) := by
  by_cases h : init.ret = .ok <;>
    simp [createClient, MyClient.construct, Entity.construct, h] <;> rfl

theorem run_createService :
    (createService name callback init).run.run node =
      if init.ret = .ok then
        (.ok (), { node with services := node.services ++ [node.entity name callback init] })
      else (.error "Failed to initialize service", node) := by
  by_cases h : init.ret = .ok <;>
    simp [createService, MyService.construct, Entity.construct, h] <;> rfl

end MyNode

end Rclmine
