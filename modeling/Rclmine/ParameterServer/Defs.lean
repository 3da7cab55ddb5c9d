import Rclmine.Executor.Spin
import Rclmine.ParameterService.Defs
import Rclmine.ToMathlib.GuardedRun
import Rclmine.ToMathlib.Linearizability

/-!
# The parameter server and its clients

The program of `main_parameter.cpp` with its clients: an executor that spins and runs the handlers
of a `MyParameterService`, the storage they share, the requests in flight, and clients that send
requests at any time, also between the steps of a handler.

A step of the system is what can happen between two points at which a client can act: one call of
`rcl_wait` with the dispatches it leads to, one `rcl_take_request` with the computation of the
response, or one `rcl_send_response`. What these calls do is chosen by the environment: which
entities are ready, which request of the service is taken or that the take fails, whether a request
is lost, and what `rcl_send_response` returns. Nothing but the running handler uses the storage, so
computing the response is one step with the take. A spin that would read a wait-set array out of
range runs the callbacks it invokes before that read.

Three things are assumed of the middleware under `rcl`: a request that was delivered is not
delivered again, a service only takes requests that were sent to it (both in `World.deliver`), and
the sequence numbers of a client are not used twice (in `World.step`, where a request is sent).
Requests may be lost and may overtake each other.

The module introduces:

* `Callback.run`: the handlers on requests of their own service;
* `World`, `Action`, `step` and `exec`: the system and its runs.
-/

namespace Rclmine.ParameterServer

open Linearizability (Event)
open MyParameterService

/-- A request to one of the services of a `MyParameterService`. -/
inductive Request
  | getParameters (req : GetParameters.Request)
  | setParameters (req : SetParameters.Request)
  | listParameters (req : ListParameters.Request)
  | describeParameters (req : DescribeParameters.Request)
  deriving DecidableEq

/-- A response of one of these services. -/
inductive Response
  | getParameters (resp : GetParameters.Response)
  | setParameters (resp : SetParameters.Response)
  | listParameters (resp : ListParameters.Response)
  | describeParameters (resp : DescribeParameters.Response)
  deriving DecidableEq

/-- A callback registered with the executor: a handler of the parameter service, or a callback that
does not touch the storage. -/
inductive Callback
  | getParameters
  | setParameters
  | listParameters
  | describeParameters
  | other
  deriving DecidableEq

/-- The handler of the service a request is for. -/
def Request.callback : Request → Callback
  | .getParameters _ => .getParameters
  | .setParameters _ => .setParameters
  | .listParameters _ => .listParameters
  | .describeParameters _ => .describeParameters

/-- What a handler hands to `rcl_send_response`, if it does not throw. -/
abbrev Handled (Resp : Type) := Except String (Option (RequestId × Resp)) × MyParameter

/-- The result of a handler as one of the service. -/
def Handled.wrap {Resp : Type} (wrap : Resp → Response) (handled : Handled Resp) :
    Handled Response :=
  (handled.1.map fun sent => sent.map fun p => (p.1, wrap p.2), handled.2)

/-- The handler a callback stands for, on what `rcl_take_request` delivered; there is no result for
another callback or a request of another service. -/
def Callback.run (T : ParameterType) (storage : MyParameter) :
    Callback → Option (RequestId × Request) → Option (Handled Response)
  | .getParameters, none =>
      some (Handled.wrap .getParameters (getParametersHandler storage none))
  | .getParameters, some (header, .getParameters req) =>
      some (Handled.wrap .getParameters (getParametersHandler storage (some (header, req))))
  | .setParameters, none =>
      some (Handled.wrap .setParameters (setParametersHandler T storage none))
  | .setParameters, some (header, .setParameters req) =>
      some (Handled.wrap .setParameters (setParametersHandler T storage (some (header, req))))
  | .listParameters, none =>
      some (Handled.wrap .listParameters (listParametersHandler storage none))
  | .listParameters, some (header, .listParameters req) =>
      some (Handled.wrap .listParameters (listParametersHandler storage (some (header, req))))
  | .describeParameters, none =>
      some (Handled.wrap .describeParameters (describeParametersHandler storage none))
  | .describeParameters, some (header, .describeParameters req) =>
      some (Handled.wrap .describeParameters
        (describeParametersHandler storage (some (header, req))))
  | _, _ => none

/-- A request in flight to the service with the handle `service`. -/
structure Pending where
  service : Ptr
  header : RequestId
  request : Request
  deriving DecidableEq

/-- The state of the system: the executor, the storage, the dispatches of the current spin still to
run, the response the running handler has computed and not yet sent, the requests in flight, the
sequence number of each client's next request, and the history of requests and responses. -/
structure World where
  executor : MyExecutor Callback
  storage : MyParameter
  todo : List (Dispatch Callback) := []
  owed : Option (RequestId × Response) := none
  pending : List Pending := []
  nextSequence : ℕ → ℕ := fun _ => 1
  history : List (Event RequestId Request Response) := []

/-- What can happen next. -/
inductive Action (E : Type)
  /-- The client `writerGuid` sends a request to a service. -/
  | sendRequest (writerGuid : ℕ) (service : Ptr) (request : Request)
  /-- A request in flight is lost. -/
  | loseRequest (i : ℕ)
  /-- The executor starts a spin. -/
  | spin (e : E)
  /-- The next callback calls `rcl_take_request`, which delivers a request in flight or fails. -/
  | takeRequest (i : Option ℕ)
  /-- The handler calls `rcl_send_response`. -/
  | sendResponse (ret : RclRet)
  /-- The next callback is another one and runs. -/
  | runOther

namespace World

variable {E : Type}

/-- What `rcl_take_request` on a service delivers, with the requests then in flight: nothing when it
fails, or any request to this service that is in flight. The request is in flight no more, so the
middleware is assumed not to deliver it again. -/
def deliver (s : World) (service : Ptr) :
    Option ℕ → Option (Option (RequestId × Request) × List Pending)
  | none => some (none, s.pending)
  | some i => do
      let p ← s.pending[i]?
      if p.service = service then return (some (p.header, p.request), s.pending.eraseIdx i)
      else none

/-- The next callback is a handler and takes a request; an exception would leave the spin. -/
def takeRequest (T : ParameterType) (s : World) (d : Dispatch Callback)
    (todo : List (Dispatch Callback)) (i : Option ℕ) : Option World := do
  let (taken, pending) ← s.deliver d.handle i
  let (sent, storage) ← d.callback.run T s.storage taken
  let history := s.history ++ (taken.map fun p => Event.take p.1 p.2).toList
  match sent with
  | .ok owed => return { s with storage, todo, owed, pending, history }
  | .error _ => return { s with storage, todo := [], owed := none, pending, history }

/-- One step of the system, if it is possible in the state. -/
def step (R : Rcl E) (T : ParameterType) (s : World) : Action E → Option World
  | .sendRequest writerGuid service request =>
      let header : RequestId := ⟨writerGuid, s.nextSequence writerGuid⟩
      some { s with
        pending := s.pending ++ [⟨service, header, request⟩]
        nextSequence :=
          Function.update s.nextSequence writerGuid (s.nextSequence writerGuid + 1)
        history := s.history ++ [.send header request] }
  | .loseRequest i =>
      if i < s.pending.length then some { s with pending := s.pending.eraseIdx i } else none
  | .spin e =>
      match s.todo, s.owed with
      | [], none =>
          let (result, executor) := MyExecutor.spin R e s.executor
          some { s with executor, todo := result.calls }
      | _, _ => none
  | .takeRequest i =>
      match s.todo, s.owed with
      | d :: todo, none => s.takeRequest T d todo i
      | _, _ => none
  | .sendResponse ret =>
      match s.owed with
      | none => none
      | some (header, resp) =>
          -- a failure is only printed
          if ret = .ok then
            some { s with owed := none, history := s.history ++ [.respond header resp] }
          else some { s with owed := none }
  | .runOther =>
      match s.todo, s.owed with
      | d :: todo, none => if d.callback = .other then some { s with todo } else none
      | _, _ => none

/-- The system before the first request, with any executor and any storage. -/
def start (executor : MyExecutor Callback) (storage : MyParameter) : World :=
  { executor, storage }

/-- The run of the actions from a state. -/
def exec (R : Rcl E) (T : ParameterType) (s : World) (actions : List (Action E)) :
    Option World :=
  GuardedRun.exec (step R T) s actions

end World

end Rclmine.ParameterServer
