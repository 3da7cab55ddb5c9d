import Rclmine.Node.Defs

/-!
# The executor

The model of `MyExecutor` (`my_executor.h`): attaching a node with `addMyNode` and waiting for and
dispatching its entities with `spin`. `R : Rcl E` are the wait-set functions; each call of a method
gets one environment `e : E`.

`spin` indexes the arrays of the wait set up to the lengths of the executor's own lists. An index
beyond an array is undefined behaviour in the source and the failure `outOfRange` here. A handle is
recorded when it is passed to `rcl_wait_set_add_*`, and a callback, as a `Dispatch`, when it is
invoked. Callbacks are taken to return normally, as those of the programs do, and they do not call
back into the executor.
-/

namespace Rclmine

/-- Why a call of the executor did not return normally. -/
inductive Failure
  /-- A `std::runtime_error` with its text. -/
  | threw (what : String)
  /-- A wait-set array was read beyond its capacity. -/
  | outOfRange (kind : EntityKind) (index : ℕ)
  deriving DecidableEq

/-- An invocation of a callback by `spin`: the position of the entity in its list, the handle the
callback is called with, and the callback. -/
structure Dispatch (κ : Type) where
  kind : EntityKind
  index : ℕ
  handle : Ptr
  callback : κ
  deriving DecidableEq

/-- A `MyExecutor`. -/
structure MyExecutor (κ : Type) where
  context : Ptr
  waitSet : WaitSet := .zeroInitialized
  subscriptions : List (CallbackPair κ) := []
  guardConditions : List Ptr := []
  timers : List Ptr := []
  clients : List (CallbackPair κ) := []
  services : List (CallbackPair κ) := []
  events : List Ptr := []

/-- What a call of `spin` did: how it ended, the handles passed to `rcl_wait_set_add_*`, what
`rcl_wait` returned if it was called, and the callbacks invoked, in order. -/
structure SpinResult (κ : Type) where
  outcome : Except Failure Unit
  added : List (EntityKind × Ptr) := []
  waited : Option RclRet := none
  calls : List (Dispatch κ) := []

/-- A wait set while `spin` fills it, with the handles passed to `rcl_wait_set_add_*` so far. -/
structure Filling where
  waitSet : WaitSet
  added : List (EntityKind × Ptr) := []

/-- A call of `rcl_wait_set_add_*`; its return code is ignored. -/
def Filling.add {E : Type} (R : Rcl E) (e : E) (k : EntityKind) (handle : Ptr)
    (filling : Filling) : Filling where
  waitSet := (R.waitSetAdd e k filling.waitSet handle).2
  added := filling.added ++ [(k, handle)]

namespace MyExecutor

variable {κ E : Type}

/-- `MyExecutor::MyExecutor`: the wait set is only zero-initialised. -/
def construct (context : Ptr) : MyExecutor κ :=
  { context }

/-- The executor's list of a kind. -/
def pairs (ex : MyExecutor κ) : EntityKind → List (CallbackPair κ)
  | .subscription => ex.subscriptions
  | .client => ex.clients
  | .service => ex.services

/-- The sizes `addMyNode` passes to `rcl_wait_set_init`. -/
def sizes (ex : MyExecutor κ) : WaitSetSizes where
  subscriptions := ex.subscriptions.length
  guardConditions := ex.guardConditions.length
  timers := ex.timers.length
  clients := ex.clients.length
  services := ex.services.length
  events := ex.events.length

/-- `MyExecutor::addSubscriptions`. -/
def addSubscriptions (ex : MyExecutor κ) (subscriptions : List (CallbackPair κ)) : MyExecutor κ :=
  { ex with subscriptions := ex.subscriptions ++ subscriptions }

/-- `MyExecutor::addClients`. -/
def addClients (ex : MyExecutor κ) (clients : List (CallbackPair κ)) : MyExecutor κ :=
  { ex with clients := ex.clients ++ clients }

/-- `MyExecutor::addServices`. -/
def addServices (ex : MyExecutor κ) (services : List (CallbackPair κ)) : MyExecutor κ :=
  { ex with services := ex.services ++ services }

/-- The part of `addMyNode` before the call of `rcl_wait_set_init`. -/
def extendLists (ex : MyExecutor κ) (node : MyNode κ) : MyExecutor κ :=
  let ex := if !node.getSubscriptions.isEmpty then ex.addSubscriptions node.getSubscriptions else ex
  let ex := if !node.getClients.isEmpty then ex.addClients node.getClients else ex
  if !node.getServices.isEmpty then ex.addServices node.getServices else ex

/-- `MyExecutor::addMyNode`. -/
def addMyNode (R : Rcl E) (e : E) (node : MyNode κ) (ex : MyExecutor κ) :
    Except Failure Unit × MyExecutor κ :=
  let ex := ex.extendLists node
  -- the wait set is initialised for the extended lists, also if it was initialised before
  let (ret, waitSet) := R.waitSetInit e ex.waitSet ex.sizes ex.context
  let ex := { ex with waitSet }
  -- the lists stay extended when the call failed
  if ret ≠ .ok then (.error (.threw "Failed to initialize wait set"), ex) else (.ok (), ex)

/-- One of the three loops of `spin` that put the handles into the wait set. -/
def fill (R : Rcl E) (e : E) (k : EntityKind) : List (CallbackPair κ) → Filling → Filling
  | [], filling => filling
  | pair :: pairs, filling => fill R e k pairs (filling.add R e k pair.handle)

/-- One of the three loops of `spin` that dispatch the entities whose slot is not null, from
position `i` on. -/
def dispatch (k : EntityKind) (slots : List (Option Ptr)) :
    List (CallbackPair κ) → ℕ → ExceptT Failure (StateM (List (Dispatch κ))) Unit
  | [], _ => pure ()
  | pair :: pairs, i => do
      match slots[i]? with
      | none => throw (.outOfRange k i)
      -- a null slot: the entity is not dispatched
      | some none => pure ()
      | some (some _) => modify (· ++ [⟨k, i, pair.handle, pair.callback⟩])
      dispatch k slots pairs (i + 1)

/-- The part of `spin` after the wait: subscriptions, then services, then clients. -/
def dispatchAll (ex : MyExecutor κ) (ws : WaitSet) :
    ExceptT Failure (StateM (List (Dispatch κ))) Unit := do
  dispatch .subscription (ws.slots .subscription) ex.subscriptions 0
  dispatch .service (ws.slots .service) ex.services 0
  dispatch .client (ws.slots .client) ex.clients 0

/-- The timeout of `spin`: `RCL_MS_TO_NS(1000)`. -/
def spinTimeout : ℤ := 1000 * 1000000

/-- `MyExecutor::spin`. -/
def spin (R : Rcl E) (e : E) (ex : MyExecutor κ) : SpinResult κ × MyExecutor κ :=
  let (ret, ws) := R.waitSetClear e ex.waitSet
  if ret ≠ .ok then
    ({ outcome := .error (.threw "Failed to clear wait set") }, { ex with waitSet := ws })
  else
    let filling := fill R e .subscription ex.subscriptions { waitSet := ws }
    let filling := fill R e .client ex.clients filling
    let filling := fill R e .service ex.services filling
    let (ret, ws) := R.wait e filling.waitSet spinTimeout
    let ex := { ex with waitSet := ws }
    if ret = .timeout then
      ({ outcome := .ok (), added := filling.added, waited := some ret }, ex)
    else
      -- every other return code, errors included, goes on to the dispatch
      let (outcome, calls) := (ex.dispatchAll ws).run.run []
      ({ outcome, added := filling.added, waited := some ret, calls }, ex)

end MyExecutor

end Rclmine
