import Rclmine.Executor.Attach
import Rclmine.Node.Lifetime
import Rclmine.ToMathlib.ForallPrefix

/-!
# The handles an executor uses

`MyExecutor` keeps addresses: `addMyNode` copies the addresses of the handles of a node's entities,
and every `spin` passes them to `rcl_wait_set_add_*` and to the callbacks, while the handles live as
long as the entities that own them. The executor learns neither of entities that are created later
nor of entities that are destroyed. This module combines the executor with the process that creates
and destroys the node, and follows every handle from `rcl_*_init` to its uses and `rcl_*_fini`.

The module introduces:

* `Application`, `Application.step` and `Application.exec`: a process with an executor, and its
  runs. The events record the calls of `rcl_*_init` and `rcl_*_fini`, the attachments, and the uses
  of handles by spins;
* `UsesLive`: a spin uses only handles that were initialised and not finalised. It holds exactly of
  the runs whose spins come in time (`usesLive_iff`);
* `used_attached`: whatever is destroyed, a spin uses only handles that were initialised before an
  attachment.
-/

namespace Rclmine

open MyExecutor

variable {κ E : Type} {R : Rcl E} {ex : MyExecutor κ}

/-- The kind of the handles of a kind of entity. -/
def EntityKind.handleKind : EntityKind → HandleKind
  | .subscription => .subscription
  | .client => .client
  | .service => .service

/-- The handle at an address, of an entity of kind `k`. -/
def EntityKind.handle (k : EntityKind) (ptr : Ptr) : Handle :=
  ⟨k.handleKind, ptr⟩

/-- The handle of a pair in the list of a kind. -/
def CallbackPair.toHandle (k : EntityKind) (pair : CallbackPair κ) : Handle :=
  k.handle pair.handle

/-- The handles that a spin used, in order: those it passed to `rcl_wait_set_add_*`, and then those
it passed to the callbacks. -/
def SpinResult.uses (result : SpinResult κ) : List Handle :=
  (result.added.map fun p => p.1.handle p.2) ++ result.calls.map fun d => d.kind.handle d.handle

/-- Something that happened to the handles of a program. -/
inductive HandleEvent
  /-- A call of `rcl` that initialises or finalises. -/
  | called (call : RclCall)
  /-- An executor copied the addresses of a node's handles. -/
  | attached
  /-- A spin passed a handle to `rcl` or to a callback. -/
  | used (handle : Handle)
  deriving DecidableEq

/-- A process with a node and an executor, and what happened to the handles so far. -/
structure Application (κ : Type) where
  process : Process κ
  executor : MyExecutor κ
  events : List HandleEvent := []

namespace Application

/-- What the program can do next. -/
inductive Action (κ E : Type)
  /-- It creates an entity, drops a handle or destroys the node. -/
  | node (a : Rclmine.Action κ)
  | addMyNode (e : E)
  | spin (e : E)

/-- What an action does, if the program can take it. The program may catch what `addMyNode` and
`spin` throw; a destroyed node cannot be attached. -/
def step (R : Rcl E) (app : Application κ) : Action κ E → Option (Application κ)
  | .node a => do
      let process ← app.process.step a
      let calls := process.trace.drop app.process.trace.length
      return { app with process, events := app.events ++ calls.map .called }
  | .addMyNode e =>
      if app.process.alive then
        -- the lists are copied whether or not the call throws
        some { app with
          executor := (MyExecutor.addMyNode R e app.process.node app.executor).2
          events := app.events ++ [.attached] }
      else none
  | .spin e =>
      let spun := MyExecutor.spin R e app.executor
      some { app with
        executor := spun.2
        events := app.events ++ spun.1.uses.map .used }

/-- The program right after the constructors of the node and the executor. -/
def start (nodeHandle context : Ptr) : Application κ :=
  { process := Process.start nodeHandle, executor := construct context }

/-- The run of the actions from a state of the program. -/
def exec (R : Rcl E) (app : Application κ) (actions : List (Action κ E)) :
    Option (Application κ) :=
  GuardedRun.exec (step R) app actions

end Application

/-! ### Which handles are used -/

/-- The handles of the calls for a list are those of its pairs. -/
theorem mem_additions {h : Handle} {k : EntityKind} {pairs : List (CallbackPair κ)} :
    (∃ p ∈ additions k pairs, p.1.handle p.2 = h) ↔ ∃ pair ∈ pairs, pair.toHandle k = h := by
  simp [additions, CallbackPair.toHandle]

/-- A spin passes the handles of the executor's lists to `rcl_wait_set_add_*`, and no others. -/
theorem mem_toAdd {h : Handle} :
    (∃ p ∈ toAdd ex, p.1.handle p.2 = h) ↔ ∃ k, ∃ pair ∈ ex.pairs k, pair.toHandle k = h := by
  simp only [toAdd, List.mem_append, or_and_right, exists_or, mem_additions]
  constructor
  · rintro ((hk | hk) | hk)
    exacts [⟨.subscription, hk⟩, ⟨.client, hk⟩, ⟨.service, hk⟩]
  · rintro ⟨k, hk⟩
    cases k
    · exact Or.inl (Or.inl hk)
    · exact Or.inl (Or.inr hk)
    · exact Or.inr hk

/-- A spin that clears the wait set uses the handles of the executor's lists, and no others. -/
theorem mem_uses (R : Rcl E) (e : E) (ex : MyExecutor κ) {h : Handle} :
    h ∈ (spin R e ex).1.uses ↔
      (R.waitSetClear e ex.waitSet).1 = .ok ∧
        ∃ k, ∃ pair ∈ ex.pairs k, pair.toHandle k = h := by
  have hcalls : h ∈ (spin R e ex).1.calls.map (fun d => d.kind.handle d.handle) →
      ∃ k, ∃ pair ∈ ex.pairs k, pair.toHandle k = h := by
    intro hmem
    obtain ⟨d, hd, rfl⟩ := List.mem_map.1 hmem
    exact ⟨d.kind, _, registered_spin R e ex d hd, rfl⟩
  rw [SpinResult.uses, List.mem_append]
  obtain ⟨hret, hspin⟩ | ⟨hret, -, hspin⟩ | ⟨hret, -, hspin⟩ := spin_cases R e ex
  · -- the spin threw before it used anything
    simp [hspin, hret]
  · simp only [hspin, List.mem_map, mem_toAdd, hret, true_and]
    simp
  · simp only [hspin] at hcalls ⊢
    rw [List.mem_map, mem_toAdd]
    simp only [hret, true_and]
    exact or_iff_left_of_imp hcalls

/-! ### What the node keeps and what it finalises -/

namespace Process

variable {p p' : Process κ}

/-- Every action extends the trace. -/
theorem exists_trace_append {a : Action κ} (h : step p a = some p') :
    ∃ calls, p'.trace = p.trace ++ calls := by
  rcases step_cases h with ⟨-, -, -, handle, ret, hc⟩ | ⟨-, -, handles, hd⟩ | ⟨-, handles, hd⟩
  · exact ⟨_, hc.trace⟩
  · exact ⟨_, hd.trace.trans (List.append_assoc _ _ _)⟩
  · exact ⟨_, hd.trace⟩

/-- The node after a `create*` method that leaves it alone when it throws. -/
theorem node_create {α : Type} {kind : HandleKind} {ret : RclRet}
    {method : EntityInit → NodeM κ α} {keep : α → Process κ → Process κ} {what : String} {a : α}
    {node : MyNode κ}
    (hrun : (method { handle := p.nextPtr, ret }).run.run p.node =
      if ret = .ok then (.ok a, node) else (.error what, p.node))
    (hkeep : ∀ q, (keep a q).node = q.node) :
    (p.create kind ret method keep).node = if ret = .ok then node else p.node := by
  by_cases hret : ret = .ok
  · rw [create, hrun, if_pos hret, if_pos hret]
    exact hkeep _
  · rw [create, hrun, if_neg hret, if_neg hret]

/-- While the node is alive it gives up none of its entities, in whatever order they are created and
the caller drops handles. -/
theorem pairs_grow {a : Action κ} (h : step p a = some p') (halive : p'.alive = true)
    (k : EntityKind) : p.node.pairs k <+: p'.node.pairs k := by
  -- a `create*` method leaves the node as it is or appends to one of its vectors
  have hcreate {node : MyNode κ} {ret : RclRet} (hnode : p'.node = if ret = .ok then node else
      p.node) (hgrows : p.node.pairs k <+: node.pairs k) : p.node.pairs k <+: p'.node.pairs k := by
    rw [hnode]
    split_ifs
    · exact hgrows
    · exact List.prefix_rfl
  cases a with
  | createPublisher topicName ret =>
      rw [step] at h
      split_ifs at h
      obtain rfl := Option.some.inj h
      exact hcreate (node_create (p.node.run_createPublisher topicName _) fun _ => rfl)
        List.prefix_rfl
  | createSubscription topicName callback ret =>
      rw [step] at h
      split_ifs at h
      obtain rfl := Option.some.inj h
      refine hcreate (node_create (p.node.run_createSubscription topicName callback _)
        fun _ => rfl) ?_
      cases k <;> simp [MyNode.pairs, MyNode.getSubscriptions, MyNode.getClients,
        MyNode.getServices]
  | createClient serviceName callback ret =>
      rw [step] at h
      split_ifs at h
      obtain rfl := Option.some.inj h
      refine hcreate (node_create (p.node.run_createClient serviceName callback _)
        fun _ => rfl) ?_
      cases k <;> simp [MyNode.pairs, MyNode.getSubscriptions, MyNode.getClients,
        MyNode.getServices]
  | createService serviceName callback ret =>
      rw [step] at h
      split_ifs at h
      obtain rfl := Option.some.inj h
      refine hcreate (node_create (p.node.run_createService serviceName callback _)
        fun _ => rfl) ?_
      cases k <;> simp [MyNode.pairs, MyNode.getSubscriptions, MyNode.getClients,
        MyNode.getServices]
  | dropPublisher ptr =>
      obtain ⟨_, hd⟩ := dropped_dropPublisher h
      rw [hd.node]
  | dropClient ptr =>
      obtain ⟨_, hd⟩ := dropped_dropClient h
      rw [hd.node]
  | destroyNode =>
      rw [step] at h
      split_ifs at h
      obtain rfl := Option.some.inj h
      cases halive

/-- The node owns the handles that an executor gets from it. -/
theorem mem_owned_of_mem_pairs {k : EntityKind} {pair : CallbackPair κ}
    (h : pair ∈ p.node.pairs k) : pair.toHandle k ∈ p.owned := by
  have hmap : ∃ entity ∈ (match k with
      | .subscription => p.node.subscriptions
      | .client => p.node.clients
      | .service => p.node.services), entity.pair = pair := by
    cases k <;> exact List.mem_map.1 h
  obtain ⟨entity, hentity, rfl⟩ := hmap
  rw [mem_owned_iff]
  cases k with
  | subscription => exact Or.inl ⟨entity, hentity, rfl⟩
  | client => exact Or.inr (Or.inr (Or.inl ⟨entity, hentity, rfl⟩))
  | service => exact Or.inr (Or.inl ⟨entity, hentity, rfl⟩)

/-- A handle that was initialised is owned if and only if it was not finalised. -/
theorem fini_not_mem_iff (h : Accounted p.nextPtr p.owned p.trace) {handle : Handle}
    (hinit : .init handle .ok ∈ p.trace) : .fini handle ∉ p.trace ↔ handle ∈ p.owned := by
  rw [← List.count_eq_zero, h.count_fini]
  simp [hinit]

end Process

/-! ### Conditions on uses -/

/-- Every use of a handle satisfies `Q`, a condition on what happened before. -/
def EachUse (Q : List HandleEvent → Handle → Prop) (events : List HandleEvent) : Prop :=
  events.ForallPrefix fun before event => ∀ h, event = .used h → Q before h

/-- The handle is initialised and not finalised. -/
def Live (events : List HandleEvent) (h : Handle) : Prop :=
  .called (.init h .ok) ∈ events ∧ .called (.fini h) ∉ events

/-- The handle was initialised when an executor copied the addresses of the node's handles. -/
def InitialisedAtAttachment (events : List HandleEvent) (h : Handle) : Prop :=
  ∃ before after, events = before ++ .attached :: after ∧ .called (.init h .ok) ∈ before

/-- A spin uses only handles that are initialised and not finalised. -/
def UsesLive (events : List HandleEvent) : Prop :=
  EachUse Live events

section EachUse

variable {Q : List HandleEvent → Handle → Prop} {events : List HandleEvent}

/-- Where no handle is used there is nothing to check. -/
theorem eachUse_append_of_unused {later : List HandleEvent} (h : ∀ x, .used x ∉ later) :
    EachUse Q (events ++ later) ↔ EachUse Q events := by
  rw [EachUse, List.forallPrefix_append]
  refine and_iff_left (List.forallPrefix_of_forall ?_)
  rintro event hevent - x rfl
  -- the event would be a use
  exact absurd hevent (h x)

/-- Several uses in a row, for a condition that does not depend on uses. -/
theorem eachUse_append_used {handles : List Handle}
    (hstable : ∀ later x, (∀ event ∈ later, ∃ y, event = .used y) →
      (Q (events ++ later) x ↔ Q events x)) :
    EachUse Q (events ++ handles.map .used) ↔ EachUse Q events ∧ ∀ x ∈ handles, Q events x := by
  rw [EachUse, List.forallPrefix_append]
  refine and_congr_right fun _ => ?_
  rw [List.forallPrefix_iff_of_stable]
  · simp
  · intro before event hbefore
    have hused : ∀ b ∈ before, ∃ y, b = .used y := fun b hb => by
      obtain ⟨y, -, rfl⟩ := List.mem_map.1 (hbefore b hb)
      exact ⟨y, rfl⟩
    simp [hstable before _ hused]

end EachUse

/-- A use does not change what is live. -/
theorem live_append_used {events later : List HandleEvent} {h : Handle}
    (hused : ∀ event ∈ later, ∃ y, event = .used y) : Live (events ++ later) h ↔ Live events h := by
  have hcall (call : RclCall) : .called call ∈ events ++ later ↔ .called call ∈ events := by
    rw [List.mem_append]
    refine or_iff_left fun hmem => ?_
    obtain ⟨y, hy⟩ := hused _ hmem
    cases hy
  rw [Live, hcall, hcall, Live]

/-- What was initialised at an attachment stays so. -/
theorem InitialisedAtAttachment.append {events : List HandleEvent} {h : Handle}
    (hinit : InitialisedAtAttachment events h) (later : List HandleEvent) :
    InitialisedAtAttachment (events ++ later) h := by
  obtain ⟨before, after, rfl, hmem⟩ := hinit
  exact ⟨before, after ++ later, by simp, hmem⟩

/-- An attachment finds the handles that were initialised before. -/
theorem initialisedAtAttachment_snoc {events : List HandleEvent} {h : Handle}
    (hinit : .called (.init h .ok) ∈ events) :
    InitialisedAtAttachment (events ++ [.attached]) h :=
  ⟨events, [], rfl, hinit⟩

/-- A use is no attachment. -/
theorem initialisedAtAttachment_append_used {events later : List HandleEvent} {h : Handle}
    (hused : ∀ event ∈ later, ∃ y, event = .used y) :
    InitialisedAtAttachment (events ++ later) h ↔ InitialisedAtAttachment events h := by
  refine ⟨fun hinit => ?_, fun hinit => hinit.append later⟩
  obtain ⟨before, after, heq, hmem⟩ := hinit
  rw [List.append_eq_append_iff] at heq
  have hno (rest : List HandleEvent) : later ≠ rest ++ .attached :: after := by
    rintro rfl
    obtain ⟨y, hy⟩ := hused .attached (by simp)
    cases hy
  -- the attachment is not among the uses, so it was there before them
  rcases heq with ⟨rest, -, hlater⟩ | ⟨rest, hevents, hrest⟩
  · exact absurd hlater (hno rest)
  · cases rest with
    | nil => exact absurd hrest.symm (hno [])
    | cons event rest =>
        obtain ⟨rfl, -⟩ := List.cons.inj hrest
        exact ⟨before, rest, hevents, hmem⟩

namespace Application

variable {app app' : Application κ}

/-- A spin is not too late: the node is alive, or the spin will throw before it uses a handle, or
all that is attached are clients that the program keeps. -/
def InTime (R : Rcl E) (e : E) (app : Application κ) : Prop :=
  app.process.alive = true ∨ (R.waitSetClear e app.executor.waitSet).1 ≠ .ok ∨
    app.executor.subscriptions = [] ∧ app.executor.services = [] ∧
      ∀ pair ∈ app.executor.clients, pair.handle ∈ app.process.clients.map Entity.handle

/-- Every spin of a run is in time. -/
def SpinsInTime (R : Rcl E) (app : Application κ) (actions : List (Action κ E)) : Prop :=
  actions.ForallPrefix fun before a => ∀ e, a = .spin e →
    ∀ app', exec R app before = some app' → InTime R e app'

/-- What holds after every run: the process is that of some actions on the node, the events record
its calls, and what the executor knows was initialised when it was attached and is owned by the node
as long as that is alive. -/
structure Inv (app : Application κ) : Prop where
  tracked : ∃ actions, Process.Tracked actions app.process
  called_iff : ∀ call, .called call ∈ app.events ↔ call ∈ app.process.trace
  attached : ∀ k, ∀ pair ∈ app.executor.pairs k,
    InitialisedAtAttachment app.events (pair.toHandle k)
  kept : app.process.alive = true →
    ∀ k, ∀ pair ∈ app.executor.pairs k, pair ∈ app.process.node.pairs k

theorem inv_start (nodeHandle context : Ptr) :
    (start nodeHandle context : Application κ).Inv where
  tracked := ⟨[], Process.tracked_start nodeHandle⟩
  called_iff _ := by simp [start, Process.start]
  attached k pair h := by simp [start, pairs_construct] at h
  kept _ k pair h := by simp [start, pairs_construct] at h

/-- The books of the process are in order. -/
theorem Inv.accounted (h : app.Inv) :
    Process.Accounted app.process.nextPtr app.process.owned app.process.trace := by
  obtain ⟨_, htracked⟩ := h.tracked
  exact htracked.accounted

/-- When the node is destroyed its vectors are empty. -/
theorem Inv.vacant (h : app.Inv) (hdead : app.process.alive ≠ true) : app.process.Vacant := by
  obtain ⟨actions, htracked⟩ := h.tracked
  rw [Ne, htracked.alive_iff, not_not] at hdead
  exact htracked.vacant hdead

/-- Whatever the executor knows was initialised. -/
theorem Inv.initialised (h : app.Inv) {k : EntityKind} {pair : CallbackPair κ}
    (hpair : pair ∈ app.executor.pairs k) : .init (pair.toHandle k) .ok ∈ app.process.trace := by
  obtain ⟨before, after, hevents, hmem⟩ := h.attached k pair hpair
  rw [← h.called_iff, hevents]
  exact List.mem_append_left _ hmem

/-- What the executor knows is live as long as somebody owns it. -/
theorem Inv.live_iff (h : app.Inv) {k : EntityKind} {pair : CallbackPair κ}
    (hpair : pair ∈ app.executor.pairs k) :
    Live app.events (pair.toHandle k) ↔ pair.toHandle k ∈ app.process.owned := by
  have hinit := h.initialised hpair
  rw [Live, h.called_iff, h.called_iff, Process.fini_not_mem_iff h.accounted hinit]
  exact and_iff_right hinit

/-- A spin uses live handles only if and only if it is in time. -/
theorem Inv.live_uses_iff (h : app.Inv) (e : E) :
    (∀ x ∈ (spin R e app.executor).1.uses, Live app.events x) ↔
      InTime R e app := by
  have huses : (∀ x ∈ (spin R e app.executor).1.uses, Live app.events x) ↔
      ((R.waitSetClear e app.executor.waitSet).1 = .ok →
        ∀ k, ∀ pair ∈ app.executor.pairs k, pair.toHandle k ∈ app.process.owned) := by
    simp only [mem_uses, and_imp, forall_exists_index]
    constructor
    · intro hlive hret k pair hpair
      exact (h.live_iff hpair).1 (hlive _ hret k pair hpair rfl)
    · rintro howned _ hret k pair hpair rfl
      exact (h.live_iff hpair).2 (howned hret k pair hpair)
  rw [huses, InTime]
  by_cases halive : app.process.alive = true
  · -- the living node owns everything that is attached
    refine iff_of_true (fun _ k pair hpair => ?_) (Or.inl halive)
    exact Process.mem_owned_of_mem_pairs (h.kept halive k pair hpair)
  · rw [or_iff_right halive, ← Decidable.imp_iff_not_or]
    refine forall_congr' fun _ => ?_
    -- after the destruction only the caller's publishers and clients are owned
    simp only [Process.mem_owned_of_vacant (h.vacant halive), Process.mem_callerHandles,
      CallbackPair.toHandle, EntityKind.handle, Handle.mk.injEq]
    constructor
    · intro howned
      refine ⟨List.eq_nil_iff_forall_not_mem.2 fun pair hpair => ?_,
        List.eq_nil_iff_forall_not_mem.2 fun pair hpair => ?_, fun pair hpair => ?_⟩
      · simpa [EntityKind.handleKind] using howned .subscription pair hpair
      · simpa [EntityKind.handleKind] using howned .service pair hpair
      · simpa [EntityKind.handleKind, eq_comm] using howned .client pair hpair
    · rintro ⟨hsub, hsrv, hcli⟩ k pair hpair
      cases k with
      | subscription => simp [MyExecutor.pairs, hsub] at hpair
      | service => simp [MyExecutor.pairs, hsrv] at hpair
      | client => simpa [EntityKind.handleKind, eq_comm] using hcli pair hpair

/-- Every action keeps the invariant; a spin in time is what keeps uses live. -/
theorem Inv.step {a : Action κ E} (h : app.Inv) (hstep : step R app a = some app') :
    app'.Inv ∧
      (UsesLive app'.events ↔ UsesLive app.events ∧ ∀ e, a = .spin e → InTime R e app) ∧
      (EachUse InitialisedAtAttachment app.events →
        EachUse InitialisedAtAttachment app'.events) := by
  cases a with
  | node a =>
      simp only [Application.step, Option.bind_eq_bind, Option.bind_eq_some_iff] at hstep
      obtain ⟨process, hprocess, hstep⟩ := hstep
      obtain rfl := Option.some.inj hstep
      -- the trace only grows, so the new events are the new calls
      obtain ⟨calls, htrace⟩ := Process.exists_trace_append hprocess
      obtain ⟨actions, htracked⟩ := h.tracked
      have hunused : ∀ x, .used x ∉ calls.map HandleEvent.called := by simp
      have hcalls : process.trace.drop app.process.trace.length = calls := by
        rw [htrace, List.drop_left]
      simp only [hcalls]
      refine ⟨⟨⟨_, htracked.step hprocess⟩, fun call => ?_, fun k pair hpair => ?_,
        fun halive k pair hpair => ?_⟩, ?_, fun hold => ?_⟩
      · simp [htrace, h.called_iff]
      · exact (h.attached k pair hpair).append _
      · -- the node was alive before, too, and gave up nothing
        have hbefore : app.process.alive = true := by
          rcases Process.step_cases hprocess with ⟨-, -, hp, -⟩ | ⟨-, hp, -⟩ | ⟨-, _, hd⟩
          · exact hp
          · exact hp
          · rw [← hd.alive, halive]
        exact (Process.pairs_grow hprocess halive k).subset (h.kept hbefore k pair hpair)
      · rw [UsesLive, eachUse_append_of_unused hunused]
        simp [UsesLive]
      · exact (eachUse_append_of_unused hunused).2 hold
  | addMyNode e =>
      rw [Application.step] at hstep
      split_ifs at hstep with halive
      obtain rfl := Option.some.inj hstep
      have hunused : ∀ x, .used x ∉ [HandleEvent.attached] := by simp
      refine ⟨⟨h.tracked, fun call => ?_, fun k pair hpair => ?_, fun _ k pair hpair => ?_⟩, ?_,
        fun hold => ?_⟩
      · simp [h.called_iff]
      · rw [pairs_addMyNode, List.mem_append] at hpair
        rcases hpair with hpair | hpair
        · exact (h.attached k pair hpair).append _
        · -- what the node owns was initialised
          refine initialisedAtAttachment_snoc ((h.called_iff _).2 ?_)
          exact h.accounted.initialised _ (Process.mem_owned_of_mem_pairs hpair)
      · rw [pairs_addMyNode, List.mem_append] at hpair
        exact hpair.elim (h.kept halive k pair) id
      · rw [UsesLive, eachUse_append_of_unused hunused]
        simp [UsesLive]
      · exact (eachUse_append_of_unused hunused).2 hold
  | spin e =>
      obtain rfl := Option.some.inj hstep
      -- a spin uses what is attached, and changes neither the process nor what is attached
      refine ⟨⟨h.tracked, fun call => ?_, fun k pair hpair => ?_, fun halive k pair hpair => ?_⟩,
        ?_, fun hold => ?_⟩
      · simp [h.called_iff]
      · rw [pairs_spin] at hpair
        exact (h.attached k pair hpair).append _
      · rw [pairs_spin] at hpair
        exact h.kept halive k pair hpair
      · rw [UsesLive, eachUse_append_used fun _ _ => live_append_used, h.live_uses_iff]
        simp [UsesLive]
      · refine (eachUse_append_used fun _ _ => initialisedAtAttachment_append_used).2
          ⟨hold, fun x hx => ?_⟩
        obtain ⟨-, k, pair, hpair, rfl⟩ := (mem_uses R e app.executor).1 hx
        exact h.attached k pair hpair

/-- The invariant of a run between its actions and the uses of handles. -/
theorem inv_exec {nodeHandle context : Ptr} {actions : List (Action κ E)}
    (h : exec R (start nodeHandle context) actions = some app) :
    app.Inv ∧ (UsesLive app.events ↔ SpinsInTime R (start nodeHandle context) actions) ∧
      EachUse InitialisedAtAttachment app.events := by
  have hinv := GuardedRun.exec_invariant
    (fun as t => exec R (start nodeHandle context) as = some t ∧ t.Inv ∧
      (UsesLive t.events ↔ SpinsInTime R (start nodeHandle context) as) ∧
      EachUse InitialisedAtAttachment t.events)
    ⟨rfl, inv_start nodeHandle context, iff_of_true List.forallPrefix_nil List.forallPrefix_nil,
      List.forallPrefix_nil⟩ ?_ h
  · exact hinv.2
  · rintro as t a t' ⟨hrun, ht, hlive, hattached⟩ hstep
    obtain ⟨ht', hlive', hattached'⟩ := ht.step hstep
    refine ⟨GuardedRun.exec_snoc.2 ⟨t, hrun, hstep⟩, ht', ?_, hattached' hattached⟩
    -- the state before the new action is `t`
    rw [hlive', hlive, SpinsInTime, SpinsInTime, List.forallPrefix_snoc]
    simp [hrun]

/-- In every run of a program, in whatever order it creates and drops entities, attaches the node,
spins and destroys the node, and whatever `rcl` returns: no spin uses a handle that is not
initialised or was finalised if and only if every spin comes in time. -/
theorem usesLive_iff {nodeHandle context : Ptr} {actions : List (Action κ E)}
    (h : exec R (start nodeHandle context) actions = some app) :
    UsesLive app.events ↔ SpinsInTime R (start nodeHandle context) actions :=
  (inv_exec h).2.1

/-- In every run a spin uses only handles that were initialised when the node was attached. An
entity that is created after the last attachment is never waited for and its callback is never
invoked, however long the executor spins. -/
theorem used_attached {nodeHandle context : Ptr} {actions : List (Action κ E)}
    (h : exec R (start nodeHandle context) actions = some app) :
    EachUse InitialisedAtAttachment app.events :=
  (inv_exec h).2.2

/-- The node is alive until it is destroyed. -/
theorem alive_or_destroyed {nodeHandle context : Ptr} {actions : List (Action κ E)}
    (h : exec R (start nodeHandle context) actions = some app) :
    app.process.alive = true ∨ .node .destroyNode ∈ actions := by
  refine GuardedRun.exec_invariant
    (fun as t => t.process.alive = true ∨ .node .destroyNode ∈ as) (Or.inl rfl) ?_ h
  rintro as t a t' ht hstep
  rcases ht with halive | hmem
  -- only `destroyNode` ends the life of the node
  · cases a with
    | node a =>
        simp only [Application.step, Option.bind_eq_bind, Option.bind_eq_some_iff] at hstep
        obtain ⟨process, hprocess, hstep⟩ := hstep
        obtain rfl := Option.some.inj hstep
        rcases Process.step_cases hprocess with ⟨-, -, -, _, _, hc⟩ | ⟨rfl, -⟩ | ⟨-, _, hd⟩
        · exact Or.inl (hc.alive.trans halive)
        · exact Or.inr (by simp)
        · exact Or.inl (hd.alive.trans halive)
    | addMyNode e =>
        rw [Application.step, if_pos halive] at hstep
        obtain rfl := Option.some.inj hstep
        exact Or.inl halive
    | spin e =>
        obtain rfl := Option.some.inj hstep
        exact Or.inl halive
  · exact Or.inr (List.mem_append_left _ hmem)

/-- A program that spins no more when it has destroyed its node, as those of `usecase/`, never uses
a handle that is not initialised or was finalised. -/
theorem usesLive_of_noneAfter {nodeHandle context : Ptr} {actions : List (Action κ E)}
    (h : exec R (start nodeHandle context) actions = some app)
    (hspins : actions.NoneAfter (.node .destroyNode) fun a => ∃ e, a = .spin e) :
    UsesLive app.events := by
  refine (inv_exec h).2.1.2 ?_
  rintro before a after rfl e rfl app' happ'
  -- the node is alive, as it was not destroyed before the spin
  refine Or.inl ((alive_or_destroyed happ').resolve_right fun hmem => ?_)
  exact (List.noneAfter_append.1 hspins).2.2 hmem _ List.mem_cons_self ⟨e, rfl⟩

/-- A program that creates a service and a client, spins, creates another service, spins again and
destroys the node. -/
def lateService : List (Action String Environment) :=
  [.node (.createService "get_parameters" "get" .ok), .node (.createClient "sum" "print" .ok),
    .addMyNode {}, .spin {}, .node (.createService "set_parameters" "set" .ok), .spin {},
    .node .destroyNode]

theorem usesLive_iff_lateService :
    ∃ app, exec Rcl.reference (start 10 0) lateService = some app ∧
      (UsesLive app.events ↔ SpinsInTime Rcl.reference (start 10 0) lateService) := by
  have hruns : (exec Rcl.reference (start 10 0) lateService).isSome = true := by decide
  obtain ⟨app, happ⟩ := Option.isSome_iff_exists.1 hruns
  exact ⟨app, happ, usesLive_iff happ⟩

theorem used_attached_lateService :
    ∃ app, exec Rcl.reference (start 10 0) lateService = some app ∧
      .used ⟨.service, 0⟩ ∈ app.events ∧ .used ⟨.service, 2⟩ ∉ app.events ∧
      EachUse InitialisedAtAttachment app.events := by
  have hruns : (exec Rcl.reference (start 10 0) lateService).map (fun app =>
      decide (.used ⟨.service, 0⟩ ∈ app.events ∧ .used ⟨.service, 2⟩ ∉ app.events)) =
        some true := by decide
  obtain ⟨app, happ, hused⟩ := Option.map_eq_some_iff.1 hruns
  obtain ⟨hfirst, hlate⟩ := of_decide_eq_true hused
  exact ⟨app, happ, hfirst, hlate, used_attached happ⟩

/-- After the destruction of the node an executor still waits for a service that was finalised; a
client that the program keeps is finalised later. -/
example :
    (exec Rcl.reference (start 10 0)
      ([.node (.createService "sum" "add" .ok), .addMyNode {}, .node .destroyNode,
        .spin { waitRet := .timeout }] : List (Action String Environment))).map (·.events) =
      some [.called (.init ⟨.service, 0⟩ .ok), .attached, .called (.fini ⟨.service, 0⟩),
        .called .nodeFini, .used ⟨.service, 0⟩] ∧
    (exec Rcl.reference (start 10 0)
      ([.node (.createClient "sum" "print" .ok), .addMyNode {}, .node .destroyNode,
        .spin { waitRet := .timeout }] : List (Action String Environment))).map (·.events) =
      some [.called (.init ⟨.client, 0⟩ .ok), .attached, .called .nodeFini,
        .used ⟨.client, 0⟩] := by
  decide

end Application

end Rclmine
