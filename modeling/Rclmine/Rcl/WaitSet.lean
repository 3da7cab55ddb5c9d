import Mathlib

/-!
# Wait sets

The data of `rcl` that `MyExecutor` works on, and the wait-set functions it calls. `rcl` is not part
of the repository: its functions are the parameter `R : Rcl E`, where an element of `E` stands for
whatever the environment decides during a call (failures, and which entities are ready). What the
code relies on is stated by one predicate for each function, from its documentation.

The module introduces:

* `WaitSet`: the three slot arrays that the executor fills and reads, with their insertion indices;
* `Rcl.InitDocumented`, `Rcl.FailedInitDocumented`, `Rcl.ClearDocumented`, `Rcl.AddDocumented`,
  `Rcl.WaitDocumented` and `Rcl.FailedWaitDocumented`: the documented behaviour of
  `rcl_wait_set_init`, `rcl_wait_set_clear`, `rcl_wait_set_add_*` and `rcl_wait`;
* `Rcl.reference`: functions with all of it, whose environment chooses the return codes and the
  ready entities freely.
-/

namespace Rclmine

/-- A return code `rcl_ret_t`. -/
inductive RclRet
  | ok
  | error
  | timeout
  | alreadyInit
  | waitSetInvalid
  | waitSetFull
  | other (code : Int)
  deriving DecidableEq

/-- The address of an `rcl` object. -/
abbrev Ptr := ℕ

/-- The kinds of entity that have callbacks. -/
inductive EntityKind
  | subscription
  | client
  | service
  deriving DecidableEq

/-- The sizes passed to `rcl_wait_set_init`. -/
structure WaitSetSizes where
  subscriptions : ℕ
  guardConditions : ℕ
  timers : ℕ
  clients : ℕ
  services : ℕ
  events : ℕ

/-- The size for a kind of entity. -/
def WaitSetSizes.of (n : WaitSetSizes) : EntityKind → ℕ
  | .subscription => n.subscriptions
  | .client => n.clients
  | .service => n.services

/-- The part of `rcl_wait_set_t` that the executor uses: the arrays `subscriptions`, `clients` and
`services`, where `none` is a null pointer, the position each array is filled up to, and whether the
set is initialised. -/
structure WaitSet where
  slots : EntityKind → List (Option Ptr)
  index : EntityKind → ℕ
  initialized : Bool

namespace WaitSet

/-- `rcl_get_zero_initialized_wait_set`. -/
def zeroInitialized : WaitSet :=
  ⟨fun _ => [], fun _ => 0, false⟩

/-- The number of slots for a kind of entity. -/
def capacity (ws : WaitSet) (k : EntityKind) : ℕ :=
  (ws.slots k).length

/-- Store a handle at the insertion index. -/
def put (ws : WaitSet) (k : EntityKind) (h : Ptr) : WaitSet :=
  { ws with
    slots := Function.update ws.slots k ((ws.slots k).set (ws.index k) (some h))
    index := Function.update ws.index k (ws.index k + 1) }

@[simp] theorem initialized_put (ws : WaitSet) (k : EntityKind) (h : Ptr) :
    (ws.put k h).initialized = ws.initialized := rfl

theorem slots_put_self (ws : WaitSet) (k : EntityKind) (h : Ptr) :
    (ws.put k h).slots k = (ws.slots k).set (ws.index k) (some h) := by
  simp [put]

theorem slots_put_of_ne (ws : WaitSet) {k k' : EntityKind} (h : Ptr) (hne : k' ≠ k) :
    (ws.put k h).slots k' = ws.slots k' := by
  simp [put, hne]

theorem index_put_self (ws : WaitSet) (k : EntityKind) (h : Ptr) :
    (ws.put k h).index k = ws.index k + 1 := by
  simp [put]

theorem index_put_of_ne (ws : WaitSet) {k k' : EntityKind} (h : Ptr) (hne : k' ≠ k) :
    (ws.put k h).index k' = ws.index k' := by
  simp [put, hne]

@[simp] theorem capacity_put (ws : WaitSet) (k k' : EntityKind) (h : Ptr) :
    (ws.put k h).capacity k' = ws.capacity k' := by
  by_cases hne : k' = k
  · -- writing a slot does not change how many there are
    subst hne
    simp [capacity, slots_put_self]
  · simp [capacity, slots_put_of_ne ws h hne]

end WaitSet

/-- The wait-set functions of `rcl`, in an environment `E` that decides what a call leaves open. -/
structure Rcl (E : Type) where
  /-- `rcl_wait_set_init`, with the sizes and the context. -/
  waitSetInit : E → WaitSet → WaitSetSizes → Ptr → RclRet × WaitSet
  /-- `rcl_wait_set_clear`. -/
  waitSetClear : E → WaitSet → RclRet × WaitSet
  /-- `rcl_wait_set_add_subscription`, `rcl_wait_set_add_client`, `rcl_wait_set_add_service`. -/
  waitSetAdd : E → EntityKind → WaitSet → Ptr → RclRet × WaitSet
  /-- `rcl_wait`, with the timeout in nanoseconds. -/
  wait : E → WaitSet → ℤ → RclRet × WaitSet
  /-- The entities `rcl_wait` reports ready, by kind and slot. -/
  ready : E → EntityKind → ℕ → Bool

namespace Rcl

variable {E : Type} (R : Rcl E)

/-- `rcl_wait_set_init` refuses an initialised wait set and leaves it alone; on another one a
success sets the capacities to the sizes passed. -/
structure InitDocumented : Prop where
  already : ∀ e ws n ctx, ws.initialized = true → R.waitSetInit e ws n ctx = (.alreadyInit, ws)
  ok : ∀ e ws n ctx, ws.initialized = false → (R.waitSetInit e ws n ctx).1 = .ok →
    (R.waitSetInit e ws n ctx).2.initialized = true ∧
      ∀ k, (R.waitSetInit e ws n ctx).2.capacity k = n.of k

/-- A failing `rcl_wait_set_init` leaves the capacities as they were. -/
def FailedInitDocumented : Prop :=
  ∀ e ws n ctx, (R.waitSetInit e ws n ctx).1 ≠ .ok →
    ∀ k, (R.waitSetInit e ws n ctx).2.capacity k = ws.capacity k

/-- `rcl_wait_set_clear` fails on a wait set that is not initialised; where it succeeds it empties
every slot and resets the insertion indices. It never changes a capacity. -/
structure ClearDocumented : Prop where
  invalid : ∀ e ws, ws.initialized = false → (R.waitSetClear e ws).1 ≠ .ok
  ok : ∀ e ws, (R.waitSetClear e ws).1 = .ok →
    (R.waitSetClear e ws).2.initialized = true ∧
      ∀ k, (R.waitSetClear e ws).2.slots k = List.replicate (ws.capacity k) none ∧
        (R.waitSetClear e ws).2.index k = 0
  capacity : ∀ e ws k, (R.waitSetClear e ws).2.capacity k = ws.capacity k

/-- `rcl_wait_set_add_*` stores the handle at the insertion index of its kind while there is room.
It never changes a capacity. -/
structure AddDocumented : Prop where
  ok : ∀ e k ws h, ws.initialized = true → ws.index k < ws.capacity k →
    R.waitSetAdd e k ws h = (.ok, ws.put k h)
  capacity : ∀ e k ws h k', (R.waitSetAdd e k ws h).2.capacity k' = ws.capacity k'

/-- Where `rcl_wait` returns `RCL_RET_OK` it has set the slots of the entities that are not ready to
null and left the others. It never changes a capacity. -/
structure WaitDocumented : Prop where
  ok : ∀ e ws t, (R.wait e ws t).1 = .ok → ∀ k,
    (R.wait e ws t).2.slots k = (ws.slots k).mapIdx fun i h => if R.ready e k i then h else none
  capacity : ∀ e ws t k, (R.wait e ws t).2.capacity k = ws.capacity k

/-- Where `rcl_wait` returns an error code, neither `RCL_RET_OK` nor `RCL_RET_TIMEOUT`, the slots
keep the handles added before. -/
def FailedWaitDocumented : Prop :=
  ∀ e ws t, (R.wait e ws t).1 ≠ .ok → (R.wait e ws t).1 ≠ .timeout →
    ∀ k, (R.wait e ws t).2.slots k = ws.slots k

end Rcl

/-- An environment that picks the return codes of `rcl_wait_set_init` and `rcl_wait` and the ready
entities. -/
structure Environment where
  initRet : RclRet := .ok
  waitRet : RclRet := .ok
  ready : EntityKind → ℕ → Bool := fun _ _ => true

namespace Rcl

/-- Wait-set functions with the documented behaviour. -/
def reference : Rcl Environment where
  waitSetInit e ws n _ :=
    -- a wait set has to be finalised before it can be initialised again
    if ws.initialized then (.alreadyInit, ws)
    else if e.initRet = .ok then
      (.ok, ⟨fun k => List.replicate (n.of k) none, fun _ => 0, true⟩)
    else (e.initRet, ws)
  waitSetClear _ ws :=
    if ws.initialized then
      (.ok, ⟨fun k => List.replicate (ws.capacity k) none, fun _ => 0, true⟩)
    else (.waitSetInvalid, ws)
  waitSetAdd _ k ws h :=
    if ws.initialized = false then (.waitSetInvalid, ws)
    else if ws.index k < ws.capacity k then (.ok, ws.put k h)
    else (.waitSetFull, ws)
  wait e ws _ :=
    if e.waitRet = .ok then
      -- the handles of the entities that are not ready are set to null
      (.ok, { ws with slots := fun k =>
        (ws.slots k).mapIdx fun i h => if e.ready k i then h else none })
    else (e.waitRet, ws)
  ready e := e.ready

theorem reference_initDocumented : reference.InitDocumented where
  already e ws n ctx h := by simp [reference, h]
  ok e ws n ctx h hok := by
    by_cases hret : e.initRet = .ok
    · simp [reference, h, hret, WaitSet.capacity]
    · simp [reference, h, hret] at hok

theorem reference_failedInitDocumented : reference.FailedInitDocumented := by
  intro e ws n ctx hfail k
  by_cases h : ws.initialized = true
  · simp [reference, h]
  · by_cases hret : e.initRet = .ok
    · simp [reference, h, hret] at hfail
    · simp [reference, h, hret]

theorem reference_clearDocumented : reference.ClearDocumented where
  invalid e ws h := by simp [reference, h]
  ok e ws hok := by
    by_cases h : ws.initialized = true
    · simp [reference, h]
    · simp [reference, h] at hok
  capacity e ws k := by
    by_cases h : ws.initialized = true <;> simp [reference, h, WaitSet.capacity]

theorem reference_addDocumented : reference.AddDocumented where
  ok e k ws h hinit hroom := by simp [reference, hinit, hroom]
  capacity e k ws h k' := by
    by_cases hinit : ws.initialized = false
    · simp [reference, hinit]
    · by_cases hroom : ws.index k < ws.capacity k <;> simp [reference, hinit, hroom]

theorem reference_waitDocumented : reference.WaitDocumented where
  ok e ws t hok k := by
    by_cases hret : e.waitRet = .ok
    · simp only [reference, hret, ↓reduceIte]
      rfl
    · simp [reference, hret] at hok
  capacity e ws t k := by
    by_cases hret : e.waitRet = .ok <;> simp [reference, hret, WaitSet.capacity]

theorem reference_failedWaitDocumented : reference.FailedWaitDocumented := by
  intro e ws t hok _ k
  by_cases hret : e.waitRet = .ok
  · simp [reference, hret] at hok
  · simp [reference, hret]

end Rcl

end Rclmine
