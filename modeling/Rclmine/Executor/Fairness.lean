import Rclmine.Executor.SpinLoop
import Rclmine.ToMathlib.ForallPrefix

/-!
# The loop serves every entity

`MyExecutor::spin` walks over all entities in each call and invokes the callback of every ready one
once, so no entity can keep the others waiting. This module proves it of the process in its loop,
for every schedule of arrivals, losses and failing calls.

The module introduces:

* `dispatchOrder ex`: the registered handles in the order in which a spin walks over them. The
  callbacks of a spin are invoked for some of them, in this order (`sublist_calls`);
* `SpinLoop.view`: what a process does to one handle, which is a polled queue (`view_step`);
* `SpinLoop.taken_in_order_once`: whatever `rcl` does, the takes of a spin are made on the
  registered handles in this order; if the take functions keep the order of arrival, so does the
  process;
* `SpinLoop.taken_within_spins`: what waits at a registered handle behind `p` others is taken or
  lost within `p + 1` spins and one for each failed take, and nobody is served more often meanwhile.
-/

namespace Rclmine

open MyExecutor MailEvent

variable {κ μ E F : Type} {R : Rcl E} {ex : MyExecutor κ}

/-! ### The order in which a spin invokes callbacks -/

/-- The registered handles, as often as they are registered, in the order in which a spin walks over
them. -/
def dispatchOrder (ex : MyExecutor κ) : List Ptr :=
  (ex.subscriptions ++ ex.services ++ ex.clients).map CallbackPair.handle

/-- The number of times a handle is registered with an executor. -/
def registrations (ex : MyExecutor κ) (handle : Ptr) : ℕ :=
  (dispatchOrder ex).count handle

/-- The order depends on the executor's lists only. -/
theorem dispatchOrder_congr {ex' : MyExecutor κ} (h : ∀ k, ex'.pairs k = ex.pairs k) :
    dispatchOrder ex' = dispatchOrder ex := by
  have hsub : ex'.subscriptions = ex.subscriptions := h .subscription
  have hsrv : ex'.services = ex.services := h .service
  have hcli : ex'.clients = ex.clients := h .client
  rw [dispatchOrder, hsub, hsrv, hcli, dispatchOrder]

/-- The computation invokes callbacks for some of the handles, in their order. -/
def InvokesAmong (handles : List Ptr)
    (x : ExceptT Failure (StateM (List (Dispatch κ))) Unit) : Prop :=
  ∀ calls, ∃ new, (x.run.run calls).2 = calls ++ new ∧
    (new.map Dispatch.handle).Sublist handles

/-- A dispatch loop invokes a callback at most once for each pair, in the order of the pairs. -/
theorem invokesAmong_dispatch (k : EntityKind) (slots : List (Option Ptr))
    (pairs : List (CallbackPair κ)) (i : ℕ) :
    InvokesAmong (pairs.map CallbackPair.handle) (dispatch k slots pairs i) := by
  intro calls
  induction pairs generalizing i calls with
  | nil => exact ⟨[], (List.append_nil _).symm, List.nil_sublist _⟩
  | cons pair pairs ih =>
      rw [run_dispatch_cons, List.map_cons]
      match slots[i]? with
      -- out of range: the loop throws and invokes nothing more
      | none => exact ⟨[], (List.append_nil _).symm, List.nil_sublist _⟩
      | some none =>
          obtain ⟨new, hnew, hsub⟩ := ih (i + 1) calls
          exact ⟨new, hnew, hsub.cons _⟩
      | some (some _) =>
          obtain ⟨new, hnew, hsub⟩ := ih (i + 1) (calls ++ [⟨k, i, pair.handle, pair.callback⟩])
          refine ⟨⟨k, i, pair.handle, pair.callback⟩ :: new, ?_, hsub.cons_cons _⟩
          rw [hnew, List.append_assoc, List.singleton_append]

/-- Of two computations the handles of the first come first. -/
theorem InvokesAmong.bind {handles handles' : List Ptr}
    {x y : ExceptT Failure (StateM (List (Dispatch κ))) Unit} (hx : InvokesAmong handles x)
    (hy : InvokesAmong handles' y) : InvokesAmong (handles ++ handles') (x >>= fun _ => y) := by
  intro calls
  obtain ⟨new, hnew, hsub⟩ := hx calls
  match hrun : x.run.run calls with
  | (.ok (), calls') =>
      obtain ⟨new', hnew', hsub'⟩ := hy calls'
      rw [run_bind_of_ok hrun]
      obtain rfl : calls' = calls ++ new := by rw [← hnew, hrun]
      refine ⟨new ++ new', by rw [hnew', List.append_assoc], ?_⟩
      rw [List.map_append]
      exact hsub.append hsub'
  | (.error failure, calls') =>
      -- the second computation does not run
      rw [run_bind_of_error hrun]
      refine ⟨new, by rw [← hnew, hrun], ?_⟩
      exact hsub.trans (List.sublist_append_left _ _)

/-- A spin invokes callbacks for registered handles in the order of dispatch, for each registration
at most one. -/
theorem sublist_calls (R : Rcl E) (e : E) (ex : MyExecutor κ) :
    ((spin R e ex).1.calls.map Dispatch.handle).Sublist (dispatchOrder ex) := by
  obtain ⟨-, h⟩ | ⟨-, -, h⟩ | ⟨-, -, h⟩ := spin_cases R e ex <;> rw [h]
  · exact List.nil_sublist _
  · exact List.nil_sublist _
  · have hloop (k : EntityKind) :=
      invokesAmong_dispatch k ((answer R e ex).2.slots k) (ex.pairs k) 0
    obtain ⟨new, hnew, hsub⟩ := ((hloop .subscription).bind
      ((hloop .service).bind (hloop .client))) []
    rw [List.nil_append] at hnew
    rw [dispatchOrder, List.map_append, List.map_append, List.append_assoc]
    rw [dispatchAll]
    exact hnew ▸ hsub

namespace SpinLoop

/-- A spin that returns invokes the callback of every entity at whose handle something waits. -/
theorem exists_mem_calls (hclear : R.ClearDocumented) (hadd : R.AddDocumented)
    (hwait : R.WaitDocumented) (hfailed : R.FailedWaitDocumented) {s : SpinLoop κ μ} {e : E}
    (hcap : CapacitiesMatch s.executor) (hnotices : Notices R e s)
    (hok : (spin R e s.executor).1.outcome = .ok ()) {k : EntityKind} {pair : CallbackPair κ}
    (hpair : pair ∈ s.executor.pairs k) (hqueue : s.queue pair.handle ≠ []) :
    ∃ d ∈ (spin R e s.executor).1.calls, d.handle = pair.handle := by
  obtain ⟨i, hi⟩ := List.mem_iff_getElem?.1 hpair
  have hnotice := hnotices k (pair, i) (List.mk_mem_zipIdx_iff_getElem?.2 hi) hqueue
  obtain ⟨-, h⟩ | ⟨-, htimeout, -⟩ | ⟨hret, htimeout, h⟩ := spin_cases R e s.executor
  · -- the wait set could not be cleared and the spin threw
    rw [h] at hok
    cases hok
  · exact absurd htimeout hnotice.1
  · refine ⟨⟨k, i, pair.handle, pair.callback⟩, ?_, rfl⟩
    rw [h]
    by_cases hans : (answer R e s.executor).1 = .ok
    · simp only [dispatchAll_answer_ok hclear hadd hwait hcap hret hans]
      exact mem_readyCalls.2 ⟨hnotice.2 hans, hi⟩
    · -- after an error code every callback runs
      simp only [dispatchAll_answer_failed hclear hadd hfailed hcap hret hans htimeout]
      exact mem_readyCalls.2 ⟨rfl, hi⟩

/-- What a process does to one handle. -/
def view (handle : Ptr) (s : SpinLoop κ μ) : PolledQueue μ where
  queue := s.queue handle
  due := (s.todo.map Dispatch.handle).count handle
  arrived := arrivedAt handle s.history
  lost := lostAt handle s.history
  taken := takenFrom handle s.history
  misses := failedTakes handle s.history
  rounds := spins s.history

variable {K : RclTake μ F} {s s' : SpinLoop κ μ} {a : Action μ E F} {polled : Prop}

/-- Whatever happens to a process, a handle sees a step of a polled queue, which is polled if every
spin of the process invokes a callback for the handle while something waits there, and ordered if
the take functions keep the order of arrival. -/
theorem view_step (hdocumented : K.Documented) (handle : Ptr) (hstep : step R K s a = some s')
    (hpolled : polled → ∀ e, a = .spin e → s.queue handle ≠ [] → 0 < (s'.view handle).due) :
    PolledQueue.Step (registrations s.executor handle) polled K.InOrder (s.view handle)
      (s'.view handle) := by
  cases effect_of_step hstep with
  | arrive h mail =>
      by_cases hh : h = handle
      · subst hh
        convert PolledQueue.Step.arrive (s.view h) mail using 1
        simp [view, arrivedAt, lostAt, takenFrom, failedTakes, spins]
      · -- what happens at another handle is not seen
        convert PolledQueue.Step.other (s.view handle) using 1
        simp [view, arrivedAt, lostAt, takenFrom, failedTakes, spins, hh, Ne.symm hh]
  | lose h i before mail after hqueue =>
      by_cases hh : h = handle
      · subst hh
        convert PolledQueue.Step.lose (s.view h) before mail after hqueue using 1
        simp [view, arrivedAt, lostAt, takenFrom, failedTakes, spins]
      · convert PolledQueue.Step.other (s.view handle) using 1
        simp [view, arrivedAt, lostAt, takenFrom, failedTakes, spins, hh, Ne.symm hh]
  | spin e htodo hended =>
      -- a spin is a round: the callbacks it invokes for the handle are the attempts due
      have hmost : ((spin R e s.executor).1.calls.map Dispatch.handle).count handle ≤
          registrations s.executor handle := (sublist_calls R e s.executor).count_le handle
      convert PolledQueue.Step.round (s.view handle) _ (by simp [view, htodo]) hmost
        fun hp => hpolled hp e rfl using 1
      simp [view, arrivedAt, lostAt, takenFrom, failedTakes, spins]
  | took f d todo mail rest htodo htake =>
      by_cases hh : d.handle = handle
      · subst hh
        obtain ⟨before, after, hqueue, rfl, hfirst⟩ := hdocumented.delivered_first htake
        convert PolledQueue.Step.take (s.view d.handle) before mail after (by simp [view, htodo])
          hqueue hfirst using 1
        simp [view, arrivedAt, lostAt, takenFrom, failedTakes, spins, htodo]
      · convert PolledQueue.Step.other (s.view handle) using 1
        simp [view, arrivedAt, lostAt, takenFrom, failedTakes, spins, htodo, hh, Ne.symm hh]
  | tookNothing f d todo rest htodo htake =>
      obtain rfl := hdocumented.failed f _ rest htake
      by_cases hh : d.handle = handle
      · subst hh
        convert PolledQueue.Step.miss (s.view d.handle) (by simp [view, htodo]) using 1
        simp [view, arrivedAt, lostAt, takenFrom, failedTakes, spins, htodo]
      · convert PolledQueue.Step.other (s.view handle) using 1
        simp [view, arrivedAt, lostAt, takenFrom, failedTakes, spins, htodo, hh]

/-- No action changes the lists of the executor. -/
theorem pairs_step (hstep : step R K s a = some s') (k : EntityKind) :
    s'.executor.pairs k = s.executor.pairs k := by
  cases effect_of_step hstep with
  | spin e _ _ => exact pairs_spin R e s.executor k
  | _ => rfl

/-- The callbacks still to run are registered ones. -/
theorem registered_step (hstep : step R K s a = some s') (h : Registered s.executor s.todo) :
    Registered s'.executor s'.todo := by
  have hpairs := pairs_step hstep
  cases effect_of_step hstep with
  | arrive handle mail => exact h
  | lose handle i before mail after _ => exact h
  | spin e _ _ =>
      -- the callbacks of the new spin
      intro d hd
      rw [hpairs]
      exact registered_spin R e s.executor d hd
  | took f d todo mail rest htodo _ =>
      exact fun d' hd' => h d' (by simp [htodo, hd'])
  | tookNothing f d todo rest htodo _ =>
      exact fun d' hd' => h d' (by simp [htodo, hd'])

/-! ### What the callbacks of a spin take from -/

/-- The takes of every spin are made on some of the handles, in their order, and those of the
current spin together with the callbacks still to run, which are on the handles `todo`. There are
none before the first spin. -/
structure Spinwise (handles : List Ptr) (history : List (MailEvent μ)) (todo : List Ptr) :
    Prop where
  spins : history.ForallRound .spun fun spin => (takes spin).Sublist handles
  current : ∀ before spin, history = before ++ .spun :: spin → .spun ∉ spin →
    (takes spin ++ todo).Sublist handles
  idle : .spun ∉ history → takes history ++ todo = []

variable {handles todo : List Ptr} {history : List (MailEvent μ)}

theorem spinwise_nil (handles : List Ptr) : Spinwise handles ([] : List (MailEvent μ)) [] where
  spins := List.forallRound_nil
  current before spin h := by simp at h
  idle _ := rfl

/-- A spin starts with all its callbacks to run. -/
theorem Spinwise.spun (h : Spinwise handles history []) (htodo : todo.Sublist handles) :
    Spinwise handles (history ++ [.spun]) todo where
  spins := h.spins.snoc (List.nil_sublist _) fun hne => absurd rfl hne
  current before spin heq hspin := by
    rwa [List.eq_nil_of_snoc_eq heq hspin]
  idle hnone := absurd (by simp) hnone

/-- Another event may be a take, which is one of the callbacks to run. -/
theorem Spinwise.snoc (event : MailEvent μ)
    (h : Spinwise handles history (takes [event] ++ todo)) (hevent : event ≠ .spun) :
    Spinwise handles (history ++ [event]) todo where
  spins := h.spins.snoc (List.nil_sublist _) fun _ before spin heq hspin => by
    have hcurrent := h.current before spin heq hspin
    rw [takes_append]
    rw [← List.append_assoc] at hcurrent
    exact (List.sublist_append_left _ todo).trans hcurrent
  current before spin heq hspin := by
    obtain ⟨spin, rfl, rfl⟩ := List.exists_of_snoc_eq hevent heq
    rw [takes_append, List.append_assoc]
    exact h.current before spin rfl fun hmem => hspin (List.mem_append_left _ hmem)
  idle hnone := by
    rw [takes_append, List.append_assoc]
    exact h.idle fun hmem => hnone (List.mem_append_left _ hmem)

/-- Every action keeps the takes in their spins. -/
theorem spinwise_step (hstep : step R K s a = some s')
    (h : Spinwise (dispatchOrder s.executor) s.history (s.todo.map Dispatch.handle)) :
    Spinwise (dispatchOrder s'.executor) s'.history (s'.todo.map Dispatch.handle) := by
  rw [dispatchOrder_congr (pairs_step hstep)]
  cases effect_of_step hstep with
  | arrive handle mail => exact h.snoc (.arrived handle mail) nofun
  | lose handle i before mail after _ => exact h.snoc (.lost handle mail) nofun
  | spin e htodo _ =>
      rw [htodo] at h
      exact h.spun (sublist_calls R e s.executor)
  | took f d todo mail rest htodo _ =>
      rw [htodo] at h
      exact h.snoc (.took d.handle mail) nofun
  | tookNothing f d todo rest htodo _ =>
      rw [htodo] at h
      exact h.snoc (.tookNothing d.handle) nofun

/-! ### What is taken, in every run -/

variable {executor : MyExecutor κ} {queue : Ptr → List μ} {actions : List (Action μ E F)}

/-- No run changes the lists of the executor. -/
theorem pairs_exec (h : exec R K (start executor queue) actions = some s) (k : EntityKind) :
    s.executor.pairs k = executor.pairs k :=
  GuardedRun.exec_invariant (fun _ t => t.executor.pairs k = executor.pairs k) rfl
    (fun _ _ _ _ ht hstep => (pairs_step hstep k).trans ht) h

/-- In every run a handle sees a run of a polled queue. -/
theorem reachable_view (hdocumented : K.Documented)
    (h : exec R K (start executor queue) actions = some s) (handle : Ptr) :
    PolledQueue.Reachable (registrations executor handle) False K.InOrder (.init (queue handle))
      (s.view handle) := by
  have hinv := GuardedRun.exec_invariant
    (fun _ t => dispatchOrder t.executor = dispatchOrder executor ∧
      PolledQueue.Reachable (registrations executor handle) False K.InOrder
        (.init (queue handle)) (t.view handle))
    ⟨rfl, .refl⟩
    (fun _ t a t' ht hstep => by
      refine ⟨(dispatchOrder_congr (pairs_step hstep)).trans ht.1, ht.2.tail ?_⟩
      -- the handle has the registrations it had in the beginning
      rw [registrations, ← ht.1]
      exact view_step hdocumented handle hstep False.elim) h
  exact hinv.2

/-- Whatever `rcl` answers, in every run of a process the callbacks take only during a spin, and in
each spin on registered handles in the order subscriptions, services, clients, for each registration
at most once; the callbacks still to run are called with the handle they were registered for. With
the documented take functions nothing is taken twice, and what was taken, lost or still waits is all
that ever arrived; and if they deliver in the order of arrival, what is taken from a handle,
followed by what still waits there, is in this order. -/
theorem taken_in_order_once (h : exec R K (start executor queue) actions = some s) :
    (.spun ∉ s.history → takes s.history = []) ∧
    (s.history.ForallRound .spun fun spin => (takes spin).Sublist (dispatchOrder executor)) ∧
    Registered executor s.todo ∧
    (K.Documented → ∀ handle,
      (takenFrom handle s.history ++ lostAt handle s.history ++ s.queue handle).Perm
        (queue handle ++ arrivedAt handle s.history)) ∧
    (K.Documented → K.InOrder → ∀ handle,
      (takenFrom handle s.history ++ s.queue handle).Sublist
        (queue handle ++ arrivedAt handle s.history)) := by
  have hspinwise := GuardedRun.exec_invariant
    (fun _ t => Spinwise (dispatchOrder t.executor) t.history (t.todo.map Dispatch.handle))
    (spinwise_nil _) (fun _ _ _ _ ht hstep => spinwise_step hstep ht) h
  rw [dispatchOrder_congr (pairs_exec h)] at hspinwise
  have hregistered := GuardedRun.exec_invariant (fun _ t => Registered t.executor t.todo)
    (by simp [Registered, start]) (fun _ _ _ _ ht hstep => registered_step hstep ht) h
  refine ⟨fun hnone => (List.append_eq_nil_iff.1 (hspinwise.idle hnone)).1, hspinwise.spins,
    fun d hd => ?_, fun hdocumented handle => ?_, fun hdocumented hordered handle => ?_⟩
  · rw [← pairs_exec h]
    exact hregistered d hd
  · exact (PolledQueue.accounted_of_reachable (reachable_view hdocumented h handle)).complete
  · exact (PolledQueue.accounted_of_reachable (reachable_view hdocumented h handle)).inOrder
      hordered

/-- Something arrives at the subscription of the sample executor, and something is lost. -/
def lossyActions : List (Action String Environment Bool) :=
  [.arrive 1 "m", .arrive 1 "n", .arrive 1 "o", .spin {}, .lose 1 1, .callback false,
    .callback false, .callback true, .spin {}, .callback false]

theorem taken_in_order_once_lossy :
    ∃ s, exec Rcl.reference RclTake.fifo (start sampleExecutor fun _ => []) lossyActions =
        some s ∧
      (.spun ∉ s.history → takes s.history = []) ∧
      (s.history.ForallRound .spun fun spin =>
        (takes spin).Sublist (dispatchOrder sampleExecutor)) ∧
      Registered sampleExecutor s.todo ∧
      ((RclTake.fifo : RclTake String Bool).Documented → ∀ handle,
        (takenFrom handle s.history ++ lostAt handle s.history ++ s.queue handle).Perm
          ([] ++ arrivedAt handle s.history)) ∧
      ((RclTake.fifo : RclTake String Bool).Documented →
        (RclTake.fifo : RclTake String Bool).InOrder → ∀ handle,
        (takenFrom handle s.history ++ s.queue handle).Sublist
          ([] ++ arrivedAt handle s.history)) := by
  have hruns : (exec Rcl.reference RclTake.fifo (start sampleExecutor fun _ => [])
      lossyActions).isSome = true := by decide
  obtain ⟨s, hs⟩ := Option.isSome_iff_exists.1 hruns
  exact ⟨s, hs, taken_in_order_once hs⟩

/-! ### How long something waits -/

/-- Where `rcl_wait` overlooks nothing, the actions are those of every run. -/
theorem step_of_stepNoticing (h : stepNoticing R K s a = some s') :
    step R K s a = some s' ∧ ∀ e, a = .spin e → Notices R e s := by
  cases a with
  | spin e =>
      rw [stepNoticing] at h
      split_ifs at h with hnotices
      refine ⟨h, ?_⟩
      rintro _ ⟨⟩
      exact hnotices
  | arrive handle mail => exact ⟨h, nofun⟩
  | lose handle i => exact ⟨h, nofun⟩
  | callback f => exact ⟨h, nofun⟩

/-- A run in which `rcl_wait` overlooks nothing is a run. -/
theorem exec_of_execNoticing {s₀ : SpinLoop κ μ} (h : execNoticing R K s₀ actions = some s) :
    exec R K s₀ actions = some s :=
  GuardedRun.exec_invariant (fun as t => exec R K s₀ as = some t) rfl
    (fun _ t _ _ ht hstep => GuardedRun.exec_snoc.2 ⟨t, ht, (step_of_stepNoticing hstep).1⟩) h

/-- A loop that has not ended had not ended before. -/
theorem ended_of_step (hstep : step R K s a = some s') (h : s'.ended = none) : s.ended = none := by
  cases effect_of_step hstep with
  | spin e _ hended => exact hended
  | _ => exact h

section Documented

variable (hclear : R.ClearDocumented) (hadd : R.AddDocumented) (hwait : R.WaitDocumented)

include hclear hadd hwait

/-- The capacities of the wait set keep matching the lists. -/
theorem capacitiesMatch_step' (hstep : step R K s a = some s')
    (hcap : CapacitiesMatch s.executor) : CapacitiesMatch s'.executor := by
  cases effect_of_step hstep with
  | spin e _ _ => exact capacitiesMatch_spin hclear hadd hwait e hcap
  | _ => exact hcap

variable (hfailed : R.FailedWaitDocumented) (hdocumented : K.Documented)

include hfailed hdocumented

/-- Where `rcl_wait` overlooks nothing and no spin throws, a registered handle is polled. -/
theorem reachable_view_noticing (hcap : CapacitiesMatch executor) {k : EntityKind}
    {pair : CallbackPair κ} (hpair : pair ∈ executor.pairs k)
    (h : execNoticing R K (start executor queue) actions = some s) (hended : s.ended = none) :
    PolledQueue.Reachable (registrations executor pair.handle) True K.InOrder
      (.init (queue pair.handle)) (s.view pair.handle) := by
  have hinv := GuardedRun.exec_invariant
    (fun _ t => (∀ k, t.executor.pairs k = executor.pairs k) ∧ CapacitiesMatch t.executor ∧
      (t.ended = none →
        PolledQueue.Reachable (registrations executor pair.handle) True K.InOrder
          (.init (queue pair.handle)) (t.view pair.handle)))
    ⟨fun _ => rfl, hcap, fun _ => .refl⟩
    (fun _ t a t' ht hnoticing => by
      obtain ⟨hstep, hnotices⟩ := step_of_stepNoticing hnoticing
      refine ⟨fun k => (pairs_step hstep k).trans (ht.1 k),
        capacitiesMatch_step' hclear hadd hwait hstep ht.2.1, fun hended => ?_⟩
      refine (ht.2.2 (ended_of_step hstep hended)).tail ?_
      rw [registrations, ← dispatchOrder_congr ht.1]
      refine view_step hdocumented pair.handle hstep fun _ e ha hqueue => ?_
      subst ha
      -- the spin returned, so it invoked a callback for the handle
      cases effect_of_step hstep with
      | spin _ _ _ =>
          have hok : (MyExecutor.spin R e t.executor).1.outcome = .ok () := by
            match hout : (MyExecutor.spin R e t.executor).1.outcome with
            | .ok () => rfl
            | .error f => simp [hout, failure] at hended
          obtain ⟨d, hd, hhandle⟩ := exists_mem_calls hclear hadd hwait hfailed ht.2.1
            (hnotices e rfl) hok (by rwa [ht.1]) hqueue
          exact List.count_pos_iff.2 (List.mem_map.2 ⟨d, hd, hhandle⟩)) h
  exact hinv.2.2 hended

end Documented

/-- The messages were taken from a handle or lost there, each as often as it is listed. -/
def TakenOrLost (s : SpinLoop κ μ) (handle : Ptr) (mails : List μ) : Prop :=
  mails.Subperm (takenFrom handle s.history ++ lostAt handle s.history)

/-- Where `rcl_wait` overlooks nothing, the take functions deliver in the order of arrival and the
wait set was initialised for the executor's lists, what waits at a registered handle behind `p`
others is, as they are, taken or lost within `p + 1` complete spins that return, and one more for
each failed take from the handle, whatever happens at the other handles. As long as one of them
waits, no handle is served more often than that, for each of its registrations. -/
theorem taken_within_spins (hclear : R.ClearDocumented) (hadd : R.AddDocumented)
    (hwait : R.WaitDocumented) (hfailed : R.FailedWaitDocumented) (hdocumented : K.Documented)
    (hordered : K.InOrder) (hcap : CapacitiesMatch executor) {k : EntityKind}
    {pair : CallbackPair κ} (hpair : pair ∈ executor.pairs k) {before : List μ} {mail : μ}
    {after : List μ} (hqueue : queue pair.handle = before ++ mail :: after)
    (h : execNoticing R K (start executor queue) actions = some s) (hended : s.ended = none) :
    (s.todo = [] → before.length + 1 + failedTakes pair.handle s.history ≤ spins s.history →
      s.TakenOrLost pair.handle (before ++ [mail])) ∧
    (¬ s.TakenOrLost pair.handle (before ++ [mail]) →
      ∀ handle, (takenFrom handle s.history).length ≤ registrations executor handle *
        (before.length + 1 + failedTakes pair.handle s.history)) := by
  have hview := reachable_view_noticing hclear hadd hwait hfailed hdocumented hcap hpair h hended
  rw [hqueue, List.append_cons] at hview
  have hlength : (before ++ [mail]).length = before.length + 1 := List.length_append
  constructor
  · intro htodo hspins
    rw [← hlength] at hspins
    exact PolledQueue.taken_or_lost_of_rounds trivial hordered hview (by simp [view, htodo]) hspins
  · intro hwaits handle
    -- each handle is served at most once in a spin for each registration
    have hserved := PolledQueue.length_taken_le
      (reachable_view hdocumented (exec_of_execNoticing h) handle)
    have hspins := PolledQueue.rounds_le_of_waiting trivial hordered hview hwaits
    rw [hlength] at hspins
    exact hserved.trans (Nat.mul_le_mul_left _ hspins)

/-- Two requests wait at the first service of the sample executor. -/
def busyQueue : Ptr → List String :=
  fun handle => if handle = 2 then ["a", "b"] else []

/-- Messages arrive at the subscription of the sample executor while the requests wait, and a take
fails. -/
def busyActions : List (Action String Environment Bool) :=
  [.spin { ready := fun k i => k = .service ∧ i = 0 }, .arrive 1 "m", .callback false,
    .spin { ready := fun k i => k = .subscription ∨ k = .service ∧ i = 0 }, .callback false,
    .arrive 1 "m", .callback true, .spin {}, .callback false, .callback false, .callback false]

theorem taken_within_spins_busy :
    ∃ s, execNoticing Rcl.reference RclTake.fifo (start sampleExecutor busyQueue) busyActions =
        some s ∧
      s.TakenOrLost 2 ["a", "b"] ∧
      (¬ s.TakenOrLost 2 ["a", "b"] →
        ∀ handle, (takenFrom handle s.history).length ≤ registrations sampleExecutor handle *
          (1 + 1 + failedTakes 2 s.history)) := by
  -- three spins are enough, as one take failed
  have hstate : (execNoticing Rcl.reference RclTake.fifo (start sampleExecutor busyQueue)
      busyActions).map (fun s => (s.ended, s.todo, failedTakes 2 s.history, spins s.history)) =
        some (none, [], 1, 3) := by decide
  obtain ⟨s, hs, heq⟩ := Option.map_eq_some_iff.1 hstate
  simp only [Prod.mk.injEq] at heq
  obtain ⟨hended, htodo, hmisses, hspins⟩ := heq
  have hpair : (⟨2, "get_parameters"⟩ : CallbackPair String) ∈ sampleExecutor.pairs .service := by
    decide
  have hqueue : busyQueue 2 = ["a"] ++ "b" :: [] := rfl
  obtain ⟨htaken, hserved⟩ := taken_within_spins Rcl.reference_clearDocumented
    Rcl.reference_addDocumented Rcl.reference_waitDocumented Rcl.reference_failedWaitDocumented
    RclTake.fifo_documented RclTake.fifo_inOrder sampleExecutor_capacitiesMatch hpair hqueue hs
    hended
  exact ⟨s, hs, htaken htodo (by rw [hmisses, hspins]; decide), hserved⟩

end SpinLoop

end Rclmine
