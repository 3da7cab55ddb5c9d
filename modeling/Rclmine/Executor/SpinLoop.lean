import Rclmine.Executor.Runs
import Rclmine.ToMathlib.GuardedRun
import Rclmine.ToMathlib.PolledQueue

/-!
# The loop around the executor

The programs of `usecase/` end in a loop that calls `MyExecutor::spin` over and over. This module
models a process in this loop together with what the middleware holds for it: for each handle the
messages, requests or responses that wait to be taken. They arrive, and are lost, at any time, also
between two callbacks of a spin. Every callback that the programs register calls its take function
(`rcl_take`, `rcl_take_request` or `rcl_take_response`) once, before anything else, on the handle it
is called with.

The module introduces:

* `RclTake`: the take functions, which are not part of the repository, with what is documented of
  them as predicates: `RclTake.Documented` and, of a middleware that keeps the order of arrival,
  `RclTake.InOrder`. `RclTake.fifo` has both;
* `SpinLoop` and `SpinLoop.step`: the process and what can happen to it. A `spin` that throws ends
  the loop;
* `SpinLoop.Notices`: `rcl_wait` overlooks nothing that waits. `SpinLoop.stepNoticing` is the step
  function restricted to such waits;
* `SpinLoop.view`: what a process does to one handle. It is a polled queue (`view_step`), so the
  rules for these apply to every handle of every run: `taken_in_order_once`, `taken_within_spins`.
-/

namespace Rclmine

open MyExecutor

/-- The take functions of `rcl`, in an environment `F` that decides what a call leaves open. -/
structure RclTake (μ F : Type) where
  /-- `rcl_take`, `rcl_take_request` and `rcl_take_response`, on what waits at the handle: what is
  delivered, where the call returns `RCL_RET_OK`, and what waits after the call. -/
  take : F → List μ → Option μ × List μ

namespace RclTake

variable {μ F : Type}

/-- A take that returns `RCL_RET_OK` delivers something that waits, which does not wait any more;
one that fails leaves everything waiting. -/
structure Documented (K : RclTake μ F) : Prop where
  delivered : ∀ f queue mail rest, K.take f queue = (some mail, rest) →
    ∃ before after, queue = before ++ mail :: after ∧ rest = before ++ after
  failed : ∀ f queue rest, K.take f queue = (none, rest) → rest = queue

/-- A take delivers what has waited longest. -/
def InOrder (K : RclTake μ F) : Prop :=
  ∀ f queue mail rest, K.take f queue = (some mail, rest) → queue = mail :: rest

/-- A delivered message was the first one, if the order of arrival is kept. -/
theorem Documented.delivered_first {K : RclTake μ F} (h : K.Documented) {f : F} {queue : List μ}
    {mail : μ} {rest : List μ} (htake : K.take f queue = (some mail, rest)) :
    ∃ before after, queue = before ++ mail :: after ∧ rest = before ++ after ∧
      (K.InOrder → before = []) := by
  by_cases hordered : K.InOrder
  · exact ⟨[], rest, hordered f queue mail rest htake, rfl, fun _ => rfl⟩
  · obtain ⟨before, after, hqueue, hrest⟩ := h.delivered f queue mail rest htake
    exact ⟨before, after, hqueue, hrest, fun hin => absurd hin hordered⟩

/-- Take functions with the documented behaviour that keep the order of arrival. The environment
decides whether a take fails. -/
def fifo : RclTake μ Bool where
  take fails queue :=
    match fails, queue with
    | false, mail :: rest => (some mail, rest)
    | _, _ => (none, queue)

theorem fifo_inOrder : (fifo : RclTake μ Bool).InOrder := by
  intro fails queue mail rest h
  match fails, queue with
  | false, [] => cases h
  | false, _ :: _ =>
      cases h
      rfl
  | true, _ => cases h

theorem fifo_documented : (fifo : RclTake μ Bool).Documented where
  delivered fails queue mail rest h := ⟨[], rest, fifo_inOrder fails queue mail rest h, rfl⟩
  failed fails queue rest h := by
    match fails, queue with
    | false, [] =>
        cases h
        rfl
    | false, _ :: _ => cases h
    | true, _ =>
        cases h
        rfl

end RclTake

/-- An event of the history of a process. -/
inductive MailEvent (μ : Type)
  | arrived (handle : Ptr) (mail : μ)
  | lost (handle : Ptr) (mail : μ)
  | spun
  | took (handle : Ptr) (mail : μ)
  | tookNothing (handle : Ptr)
  deriving DecidableEq

namespace MailEvent

variable {μ : Type}

/-- What arrived at a handle. -/
def arrivedAt (handle : Ptr) (history : List (MailEvent μ)) : List μ :=
  history.filterMap fun
    | .arrived h mail => if h = handle then some mail else none
    | _ => none

/-- What was lost at a handle. -/
def lostAt (handle : Ptr) (history : List (MailEvent μ)) : List μ :=
  history.filterMap fun
    | .lost h mail => if h = handle then some mail else none
    | _ => none

/-- What was taken from a handle. -/
def takenFrom (handle : Ptr) (history : List (MailEvent μ)) : List μ :=
  history.filterMap fun
    | .took h mail => if h = handle then some mail else none
    | _ => none

/-- The handles of the takes of a history, in order, whether or not they delivered anything. -/
def takes (history : List (MailEvent μ)) : List Ptr :=
  history.filterMap fun
    | .took h _ => some h
    | .tookNothing h => some h
    | _ => none

theorem takes_append (history later : List (MailEvent μ)) :
    takes (history ++ later) = takes history ++ takes later :=
  List.filterMap_append

/-- The number of failed takes from a handle. -/
def failedTakes (handle : Ptr) (history : List (MailEvent μ)) : ℕ :=
  history.countP fun
    | .tookNothing h => h = handle
    | _ => false

/-- The number of spins. -/
def spins (history : List (MailEvent μ)) : ℕ :=
  history.countP fun
    | .spun => true
    | _ => false

end MailEvent

open MailEvent

/-- A process in its loop: the executor, what waits at each handle, the callbacks of the current
spin still to run, the failure that ended the loop, and the history. -/
structure SpinLoop (κ μ : Type) where
  executor : MyExecutor κ
  queue : Ptr → List μ
  todo : List (Dispatch κ) := []
  ended : Option Failure := none
  history : List (MailEvent μ) := []

namespace SpinLoop

variable {κ μ E F : Type}

/-- What can happen to a process. -/
inductive Action (μ E F : Type)
  | arrive (handle : Ptr) (mail : μ)
  | lose (handle : Ptr) (i : ℕ)
  | spin (e : E)
  /-- The next callback of the spin runs and takes. -/
  | callback (f : F)

/-- The process before its first spin. -/
def start (executor : MyExecutor κ) (queue : Ptr → List μ) : SpinLoop κ μ :=
  { executor, queue }

/-- A take from a handle. -/
def take (K : RclTake μ F) (f : F) (s : SpinLoop κ μ) (handle : Ptr) :
    Option μ × SpinLoop κ μ :=
  match K.take f (s.queue handle) with
  | (some mail, rest) =>
      (some mail, { s with
        queue := Function.update s.queue handle rest
        history := s.history ++ [.took handle mail] })
  | (none, rest) =>
      (none, { s with
        queue := Function.update s.queue handle rest
        history := s.history ++ [.tookNothing handle] })

/-- The next callback runs up to its take. -/
def callback (K : RclTake μ F) (f : F) (s : SpinLoop κ μ) :
    Option (Dispatch κ × Option μ × SpinLoop κ μ) :=
  match s.todo with
  | [] => none
  | d :: todo => some (d, take K f { s with todo } d.handle)

/-- An exception leaves the loop. -/
def failure : Except Failure Unit → Option Failure
  | .ok () => none
  | .error failure => some failure

/-- The effect of an action, if it is possible. -/
def step (R : Rcl E) (K : RclTake μ F) (s : SpinLoop κ μ) :
    Action μ E F → Option (SpinLoop κ μ)
  | .arrive handle mail => some { s with
      queue := Function.update s.queue handle (s.queue handle ++ [mail])
      history := s.history ++ [.arrived handle mail] }
  | .lose handle i =>
      match (s.queue handle)[i]? with
      | none => none
      | some mail => some { s with
          queue := Function.update s.queue handle ((s.queue handle).eraseIdx i)
          history := s.history ++ [.lost handle mail] }
  | .spin e =>
      match s.todo, s.ended with
      | [], none =>
          let (result, executor) := MyExecutor.spin R e s.executor
          some { s with
            executor
            todo := result.calls
            ended := failure result.outcome
            history := s.history ++ [.spun] }
      | _, _ => none
  | .callback f => (callback K f s).map fun r => r.2.2

/-- A run of a process. -/
def exec (R : Rcl E) (K : RclTake μ F) (s : SpinLoop κ μ) (actions : List (Action μ E F)) :
    Option (SpinLoop κ μ) :=
  GuardedRun.exec (step R K) s actions

/-- If something waits at the handle of a registered entity, `rcl_wait` does not time out, and where
it returns `RCL_RET_OK` it reports the entity ready. -/
def Notices (R : Rcl E) (e : E) (s : SpinLoop κ μ) : Prop :=
  ∀ k, ∀ p ∈ (s.executor.pairs k).zipIdx, s.queue p.1.handle ≠ [] →
    (answer R e s.executor).1 ≠ .timeout ∧
      ((answer R e s.executor).1 = .ok → R.ready e k p.2 = true)

/-- Whether the kinds of entity all have a property. -/
instance (P : EntityKind → Prop) [DecidablePred P] : Decidable (∀ k, P k) :=
  decidable_of_iff (P .subscription ∧ P .client ∧ P .service)
    ⟨fun h k => by cases k <;> simp [h], fun h => ⟨h _, h _, h _⟩⟩

instance (R : Rcl E) (e : E) (s : SpinLoop κ μ) : Decidable (Notices R e s) := by
  unfold Notices
  infer_instance

/-- The effect of an action where `rcl_wait` overlooks nothing. -/
def stepNoticing (R : Rcl E) (K : RclTake μ F) (s : SpinLoop κ μ) :
    Action μ E F → Option (SpinLoop κ μ)
  | .spin e => if Notices R e s then step R K s (.spin e) else none
  | a => step R K s a

/-- A run in which `rcl_wait` overlooks nothing. -/
def execNoticing (R : Rcl E) (K : RclTake μ F) (s : SpinLoop κ μ)
    (actions : List (Action μ E F)) : Option (SpinLoop κ μ) :=
  GuardedRun.exec (stepNoticing R K) s actions

/-! ### Everything an action can do -/

/-- What an action does. -/
inductive Effect (R : Rcl E) (K : RclTake μ F) (s : SpinLoop κ μ) :
    Action μ E F → SpinLoop κ μ → Prop
  | arrive (handle : Ptr) (mail : μ) :
      Effect R K s (.arrive handle mail) { s with
        queue := Function.update s.queue handle (s.queue handle ++ [mail])
        history := s.history ++ [.arrived handle mail] }
  | lose (handle : Ptr) (i : ℕ) (before : List μ) (mail : μ) (after : List μ) :
      s.queue handle = before ++ mail :: after →
        Effect R K s (.lose handle i) { s with
          queue := Function.update s.queue handle (before ++ after)
          history := s.history ++ [.lost handle mail] }
  | spin (e : E) :
      s.todo = [] → s.ended = none →
        Effect R K s (.spin e) { s with
          executor := (MyExecutor.spin R e s.executor).2
          todo := (MyExecutor.spin R e s.executor).1.calls
          ended := failure (MyExecutor.spin R e s.executor).1.outcome
          history := s.history ++ [.spun] }
  | took (f : F) (d : Dispatch κ) (todo : List (Dispatch κ)) (mail : μ) (rest : List μ) :
      s.todo = d :: todo → K.take f (s.queue d.handle) = (some mail, rest) →
        Effect R K s (.callback f) { s with
          todo
          queue := Function.update s.queue d.handle rest
          history := s.history ++ [.took d.handle mail] }
  | tookNothing (f : F) (d : Dispatch κ) (todo : List (Dispatch κ)) (rest : List μ) :
      s.todo = d :: todo → K.take f (s.queue d.handle) = (none, rest) →
        Effect R K s (.callback f) { s with
          todo
          queue := Function.update s.queue d.handle rest
          history := s.history ++ [.tookNothing d.handle] }

variable {R : Rcl E} {K : RclTake μ F} {s s' : SpinLoop κ μ} {a : Action μ E F}

/-- Everything an action can do. -/
theorem effect_of_step (hstep : step R K s a = some s') : Effect R K s a s' := by
  cases a with
  | arrive handle mail =>
      obtain rfl := Option.some.inj hstep
      exact .arrive handle mail
  | lose handle i =>
      rw [step] at hstep
      split at hstep
      · cases hstep
      · next mail hmail =>
          obtain rfl := Option.some.inj hstep
          obtain ⟨before, after, hqueue, herase⟩ := List.exists_eraseIdx hmail
          rw [herase]
          exact .lose handle i before mail after hqueue
  | spin e =>
      rw [step] at hstep
      split at hstep
      · next htodo hended =>
          obtain rfl := Option.some.inj hstep
          exact .spin e htodo hended
      · cases hstep
  | callback f =>
      simp only [step, callback] at hstep
      match htodo : s.todo with
      | [] => simp [htodo] at hstep
      | d :: todo =>
          simp only [htodo, Option.map_some, Option.some.injEq] at hstep
          -- what the take delivers decides what is recorded
          match htake : K.take f (s.queue d.handle) with
          | (some mail, rest) =>
              rw [← hstep, take, htake]
              exact .took f d todo mail rest htodo htake
          | (none, rest) =>
              rw [← hstep, take, htake]
              exact .tookNothing f d todo rest htodo htake

end SpinLoop

end Rclmine
