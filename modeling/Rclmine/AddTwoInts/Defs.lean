import Rclmine.Executor.SpinLoop
import Rclmine.ParameterService.Defs

/-!
# The addition service and its clients

The programs of `main_executor_service.cpp` and `main_executor_client.cpp`: a process that serves
`AddTwoInts` and any number of processes with one client each, all of them in the loop around
`MyExecutor::spin`. Clients send requests with `MyClient::request`; a request in flight is taken by
the service's callback, which adds the two numbers and sends the response; a response in flight is
taken by the callback of the client whose request it answers.

Requests and responses may overtake each other and get lost. Three things are assumed of the
middleware under `rcl`: a message that was delivered is not delivered again (`deliver`), a response
is delivered only to the client that sent the request (`World.step`, where a response is taken), and
the sequence numbers of a client are not used twice (`World.step`, where a request is sent). The
environment chooses what the calls of `rcl` return, which entities are ready, and which request or
response a take delivers. A process whose `spin` or `request` throws goes no further, apart from the
callbacks that a spin invokes before it throws. An overflow of the addition is undefined behaviour:
there is no step.

The module introduces:

* `Request.sum`, `serviceCallback`, `MyClient.request` and `clientCallback`: what the programs do
  between two calls of `rcl`;
* `World`, `Action`, `step` and `exec`: the processes with what is in flight, and their runs.
-/

namespace Rclmine.AddTwoInts

/-- The message `example_interfaces/srv/AddTwoInts_Request`. -/
structure Request where
  a : Int64
  b : Int64
  deriving DecidableEq

/-- The message `example_interfaces/srv/AddTwoInts_Response`. -/
structure Response where
  sum : Int64
  deriving DecidableEq

/-- `req->a + req->b`, unless it overflows. -/
def Request.sum (req : Request) : Option Int64 :=
  if Int64.minValue.toInt ≤ req.a.toInt + req.b.toInt ∧
      req.a.toInt + req.b.toInt ≤ Int64.maxValue.toInt then some (req.a + req.b)
  else none

/-- A line that a callback prints, without the fixed text around the numbers. -/
inductive Line
  /-- The service: `Request: a=.., b=.. -> Response: sum=..`. -/
  | handled (header : RequestId) (req : Request) (resp : Response)
  /-- The service: `Failed to send response`. -/
  | failedToSend
  /-- The client `writerGuid`: `Response .. received: sum=..`. -/
  | received (writerGuid sequenceNumber : ℕ) (sum : Int64)
  /-- The client `writerGuid`: `Failed to take response`. -/
  | failedToTake (writerGuid : ℕ)
  deriving DecidableEq

/-- The callback of the service up to `rcl_send_response`, on what `rcl_take_request` delivered: the
response to send, if a request was taken, and the lines printed. -/
def serviceCallback :
    Option (RequestId × Request) → Option (Option (RequestId × Response) × List Line)
  -- a failed take is not reported
  | none => some (none, [])
  | some (header, req) => do
      let sum ← req.sum
      return (some (header, ⟨sum⟩), [.handled header req ⟨sum⟩])

/-- The callback of a client, on what `rcl_take_response` delivered. -/
def clientCallback (writerGuid : ℕ) : Option (RequestId × Response) → List Line
  | some (header, resp) => [.received writerGuid header.sequenceNumber resp.sum]
  | none => [.failedToTake writerGuid]

/-- `MyClient::request`, on what `rcl_send_request` returned. -/
def MyClient.request (ret : RclRet) : Except Failure Unit :=
  if ret ≠ .ok then .error (.threw "Failed to send request") else .ok ()

/-- A process in its loop: the executor, the callbacks of the current spin still to run, and the
exception that ended the process. -/
structure Looping where
  executor : MyExecutor Unit
  todo : List (Dispatch Unit) := []
  ended : Option Failure := none

/-- A process of `main_executor_client.cpp`, with the sequence number of its next request. -/
structure ClientProcess extends Looping where
  nextSequence : ℕ := 1

/-- A process of `main_executor_service.cpp`, with the response that its callback has computed and
not yet sent. -/
structure ServiceProcess extends Looping where
  owed : Option (RequestId × Response) := none

/-- The state of the system: the processes, the requests and responses in flight, the lines printed,
and, for the specification, the requests that were sent and the identities of the requests and
responses that got lost. -/
structure World where
  service : ServiceProcess
  client : ℕ → ClientProcess
  requests : List (RequestId × Request) := []
  responses : List (RequestId × Response) := []
  output : List Line := []
  sent : List (RequestId × Request) := []
  lostRequests : List RequestId := []
  lostResponses : List RequestId := []

/-- What can happen next. -/
inductive Action (E : Type)
  /-- The client `writerGuid` calls `MyClient::request`. -/
  | request (writerGuid : ℕ) (req : Request) (ret : RclRet)
  /-- The client `writerGuid` starts a spin. -/
  | clientSpin (writerGuid : ℕ) (e : E)
  /-- The next callback of the client `writerGuid` calls `rcl_take_response`. -/
  | takeResponse (writerGuid : ℕ) (i : Option ℕ)
  /-- The service starts a spin. -/
  | serviceSpin (e : E)
  /-- The next callback of the service calls `rcl_take_request`. -/
  | takeRequest (i : Option ℕ)
  /-- The callback of the service calls `rcl_send_response`. -/
  | sendResponse (ret : RclRet)
  | loseRequest (i : ℕ)
  | loseResponse (i : ℕ)

variable {E : Type}

/-- The next call of `spin`, if the process is between two of them. -/
def Looping.spin (R : Rcl E) (e : E) (p : Looping) : Option Looping :=
  match p.todo, p.ended with
  | [], none =>
      let spun := MyExecutor.spin R e p.executor
      some {
        executor := spun.2
        todo := spun.1.calls
        ended := SpinLoop.failure spun.1.outcome }
  | _, _ => none

/-- The next callback of a spin runs. -/
def Looping.callback (p : Looping) : Option Looping :=
  match p.todo with
  | [] => none
  | _ :: todo => some { p with todo }

/-- What a take delivers: nothing when it fails, or the element at a position, with what is left.
The message is in flight no more, so the middleware is assumed not to deliver it again. -/
def deliver {α : Type} (inFlight : List α) : Option ℕ → Option (Option α × List α)
  | none => some (none, inFlight)
  | some i => do
      let x ← inFlight[i]?
      return (some x, inFlight.eraseIdx i)

namespace World

/-- The system with a process of a client changed. -/
def setClient (s : World) (writerGuid : ℕ) (p : ClientProcess) : World :=
  { s with client := Function.update s.client writerGuid p }

/-- The effect of an action, if it is possible. -/
def step (R : Rcl E) (s : World) : Action E → Option World
  | .request writerGuid req ret =>
      let p := s.client writerGuid
      match p.todo, p.ended with
      | [], none =>
          match MyClient.request ret with
          | .ok () =>
              let header : RequestId := ⟨writerGuid, p.nextSequence⟩
              some { s.setClient writerGuid { p with nextSequence := p.nextSequence + 1 } with
                requests := s.requests ++ [(header, req)]
                sent := s.sent ++ [(header, req)] }
          | .error f => some (s.setClient writerGuid { p with ended := some f })
      | _, _ => none
  | .clientSpin writerGuid e => do
      let p := s.client writerGuid
      let looping ← p.toLooping.spin R e
      return s.setClient writerGuid { p with toLooping := looping }
  | .takeResponse writerGuid i => do
      let p := s.client writerGuid
      let looping ← p.toLooping.callback
      let (taken, responses) ← deliver s.responses i
      -- a response is delivered to the client that sent the request
      guard (∀ resp ∈ taken, resp.1.writerGuid = writerGuid)
      return { s.setClient writerGuid { p with toLooping := looping } with
        responses, output := s.output ++ clientCallback writerGuid taken }
  | .serviceSpin e =>
      match s.service.owed with
      | none => do
          let looping ← s.service.toLooping.spin R e
          return { s with service := { s.service with toLooping := looping } }
      | some _ => none
  | .takeRequest i =>
      match s.service.owed with
      | none => do
          let looping ← s.service.toLooping.callback
          let (taken, requests) ← deliver s.requests i
          let (owed, lines) ← serviceCallback taken
          return { s with
            service := { looping with owed }, requests, output := s.output ++ lines }
      | some _ => none
  | .sendResponse ret =>
      match s.service.owed with
      | none => none
      | some (header, resp) =>
          let service := { s.service with owed := none }
          if ret = .ok then
            some { s with service, responses := s.responses ++ [(header, resp)] }
          else
            -- the failure is only printed, so there will be no response
            some { s with
              service
              output := s.output ++ [.failedToSend]
              lostResponses := s.lostResponses ++ [header] }
  | .loseRequest i =>
      match s.requests[i]? with
      | none => none
      | some p => some { s with
          requests := s.requests.eraseIdx i
          lostRequests := s.lostRequests ++ [p.1] }
  | .loseResponse i =>
      match s.responses[i]? with
      | none => none
      | some p => some { s with
          responses := s.responses.eraseIdx i
          lostResponses := s.lostResponses ++ [p.1] }

/-- The system before the first request, with any executors. -/
def start (service : MyExecutor Unit) (client : ℕ → MyExecutor Unit) : World :=
  { service := { executor := service }, client := fun c => { executor := client c } }

/-- The run of the actions from a state. -/
def exec (R : Rcl E) (s : World) (actions : List (Action E)) : Option World :=
  GuardedRun.exec (step R) s actions

end World

end Rclmine.AddTwoInts
