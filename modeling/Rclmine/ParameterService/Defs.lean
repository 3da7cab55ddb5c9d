import Rclmine.Parameter.Defs
import Rclmine.ToMathlib.Mealy

/-!
# The handlers of the parameter service

The model of the four callbacks that `MyParameterService` (`my_parameter_service.h`) registers:
`get_parameters`, `set_parameters`, `list_parameters` and `describe_parameters`. A handler takes a
request with `rcl_take_request`, computes a response on the shared storage and passes it, with the
header of the request, to `rcl_send_response`.

What the two external calls do is an input and an output of a handler: the request that was taken,
if `rcl_take_request` returned `RCL_RET_OK`, and the response handed to `rcl_send_response`, whose
return code only decides what is printed. Message fields that no handler reads or writes are left
out.
-/

namespace Rclmine

/-- The request header `rmw_request_id_t`: the client that sent the request and its number. -/
structure RequestId where
  writerGuid : Nat
  sequenceNumber : Nat
  deriving DecidableEq

/-- The message `rcl_interfaces/msg/Parameter`. -/
structure Parameter where
  name : String
  value : ParameterValue
  deriving DecidableEq

/-- The message `rcl_interfaces/msg/SetParametersResult`. -/
structure SetParametersResult where
  successful : Bool := false
  reason : String := ""
  deriving DecidableEq

/-- The message `rcl_interfaces/msg/ParameterDescriptor`; no descriptor is ever built. -/
structure ParameterDescriptor where
  name : String
  deriving DecidableEq

namespace GetParameters

/-- The request of `rcl_interfaces/srv/GetParameters`. -/
structure Request where
  names : List String
  deriving DecidableEq

/-- The response of `rcl_interfaces/srv/GetParameters`. -/
structure Response where
  values : List ParameterValue := []
  deriving DecidableEq

end GetParameters

namespace SetParameters

/-- The request of `rcl_interfaces/srv/SetParameters`. -/
structure Request where
  parameters : List Parameter
  deriving DecidableEq

/-- The response of `rcl_interfaces/srv/SetParameters`. -/
structure Response where
  results : List SetParametersResult := []
  deriving DecidableEq

end SetParameters

namespace ListParameters

/-- The request of `rcl_interfaces/srv/ListParameters`; its prefixes and depth are not read. -/
structure Request where
  deriving DecidableEq

/-- The response of `rcl_interfaces/srv/ListParameters`: the field `result.names`. -/
structure Response where
  names : List String := []
  deriving DecidableEq

end ListParameters

namespace DescribeParameters

/-- The request of `rcl_interfaces/srv/DescribeParameters`. -/
structure Request where
  names : List String
  deriving DecidableEq

/-- The response of `rcl_interfaces/srv/DescribeParameters`. -/
structure Response where
  descriptors : List ParameterDescriptor := []
  deriving DecidableEq

end DescribeParameters

namespace MyParameterService

section Handle

variable {Req Resp : Type}

/-- The frame the four handlers share: take a request, compute the response, send it with the
header of the request. The argument is `none` if `rcl_take_request` did not return `RCL_RET_OK`;
the result is what is passed to `rcl_send_response`, or the exception that leaves the handler, with
the storage afterwards. -/
def handle (respond : MyParameter → Req → Except String Resp × MyParameter)
    (storage : MyParameter) (taken : Option (RequestId × Req)) :
    Except String (Option (RequestId × Resp)) × MyParameter :=
  match taken with
  -- nothing was taken: the handler returns
  | none => (.ok none, storage)
  | some (requestHeader, req) =>
      let (resp, storage) := respond storage req
      (resp.map fun resp => some (requestHeader, resp), storage)

end Handle

/-- The loop of `get_parameters_handler` over the names still to look up. -/
def getParametersLoop (storage : MyParameter) :
    List String → List ParameterValue → Except String (List ParameterValue)
  | [], values => .ok values
  | name :: names, values =>
      if storage.hasParameter name then do
        let value ← storage.getParameter name
        getParametersLoop storage names (values ++ [value])
      else
        -- "Parameter not found": nothing is pushed for this name
        getParametersLoop storage names values

/-- What `get_parameters_handler` responds. -/
def getParametersResponse (storage : MyParameter) (req : GetParameters.Request) :
    Except String GetParameters.Response × MyParameter :=
  ((getParametersLoop storage req.names []).map GetParameters.Response.mk, storage)

/-- One entry of a `set_parameters` request: its result and the storage after it. -/
def setParametersEntry (T : ParameterType) (storage : MyParameter) (param : Parameter) :
    SetParametersResult × MyParameter :=
  let (successful, storage) := storage.setParameter T param.name param.value
  let reason := if !successful then "Failed to set parameter " ++ param.name else ""
  ({ successful, reason }, storage)

/-- The loop of `set_parameters_handler` over the entries still to apply. -/
def setParametersLoop (T : ParameterType) (storage : MyParameter) :
    List Parameter → List SetParametersResult → List SetParametersResult × MyParameter
  | [], results => (results, storage)
  | param :: parameters, results =>
      let (result, storage) := setParametersEntry T storage param
      setParametersLoop T storage parameters (results ++ [result])

/-- What `set_parameters_handler` responds. -/
def setParametersResponse (T : ParameterType) (storage : MyParameter)
    (req : SetParameters.Request) : Except String SetParameters.Response × MyParameter :=
  let (results, storage) := setParametersLoop T storage req.parameters []
  (.ok { results }, storage)

/-- What `list_parameters_handler` responds. -/
def listParametersResponse (storage : MyParameter) (_req : ListParameters.Request) :
    Except String ListParameters.Response × MyParameter :=
  let allParams := storage.getParameterNames
  (.ok { names := allParams }, storage)

/-- What `describe_parameters_handler` responds: descriptors are not implemented, so the list is
reserved but stays empty. -/
def describeParametersResponse (storage : MyParameter) (_req : DescribeParameters.Request) :
    Except String DescribeParameters.Response × MyParameter :=
  (.ok {}, storage)

/-- `get_parameters_handler`. -/
def getParametersHandler : MyParameter → Option (RequestId × GetParameters.Request) →
    Except String (Option (RequestId × GetParameters.Response)) × MyParameter :=
  handle getParametersResponse

/-- `set_parameters_handler`. -/
def setParametersHandler (T : ParameterType) :
    MyParameter → Option (RequestId × SetParameters.Request) →
      Except String (Option (RequestId × SetParameters.Response)) × MyParameter :=
  handle (setParametersResponse T)

/-- `list_parameters_handler`. -/
def listParametersHandler : MyParameter → Option (RequestId × ListParameters.Request) →
    Except String (Option (RequestId × ListParameters.Response)) × MyParameter :=
  handle listParametersResponse

/-- `describe_parameters_handler`. -/
def describeParametersHandler : MyParameter → Option (RequestId × DescribeParameters.Request) →
    Except String (Option (RequestId × DescribeParameters.Response)) × MyParameter :=
  handle describeParametersResponse

/-! ### What the handlers respond -/

/-- The entries of `set_parameters` requests as a machine over the storage. -/
def entryMachine (T : ParameterType) : Mealy MyParameter Parameter SetParametersResult where
  step := setParametersEntry T

variable {T : ParameterType}

/-- The loop of `get_parameters_handler` pushes the stored values of the declared names, in order,
and never throws. -/
theorem getParametersLoop_eq (storage : MyParameter) (names : List String)
    (values : List ParameterValue) :
    getParametersLoop storage names values = .ok (values ++ names.filterMap storage.find) := by
  induction names generalizing values with
  | nil => simp [getParametersLoop]
  | cons name names ih =>
      cases hfind : storage.find name with
      | none => simp [getParametersLoop, MyParameter.hasParameter, hfind, ih]
      | some v =>
          have hget := MyParameter.getParameter_of_find hfind
          simp [getParametersLoop, MyParameter.hasParameter, hfind, hget, ih, bind, Except.bind]

/-- The loop of `set_parameters_handler` is a run of the entries. -/
theorem setParametersLoop_eq (storage : MyParameter) (parameters : List Parameter)
    (results : List SetParametersResult) :
    setParametersLoop T storage parameters results =
      (results ++ (entryMachine T).results storage parameters,
        (entryMachine T).run storage parameters) := by
  induction parameters generalizing storage results with
  | nil => simp [setParametersLoop]
  | cons param parameters ih => simp [setParametersLoop, ih, entryMachine]

/-- The handler `get_parameters` sends the stored values of the declared names. -/
theorem getParametersHandler_some (storage : MyParameter) (header : RequestId)
    (req : GetParameters.Request) :
    getParametersHandler storage (some (header, req)) =
      (.ok (some (header, { values := req.names.filterMap storage.find })), storage) := by
  simp [getParametersHandler, handle, getParametersResponse, getParametersLoop_eq, Except.map]

/-- The handler `set_parameters` sends the results of its entries, applied one after another. -/
theorem setParametersHandler_some (storage : MyParameter) (header : RequestId)
    (req : SetParameters.Request) :
    setParametersHandler T storage (some (header, req)) =
      (.ok (some (header, { results := (entryMachine T).results storage req.parameters })),
        (entryMachine T).run storage req.parameters) := by
  simp [setParametersHandler, handle, setParametersResponse, setParametersLoop_eq, Except.map]

/-- The handler `list_parameters` sends the declared names. -/
theorem listParametersHandler_some (storage : MyParameter) (header : RequestId)
    (req : ListParameters.Request) :
    listParametersHandler storage (some (header, req)) =
      (.ok (some (header, { names := storage.getParameterNames })), storage) := rfl

/-- The handler `describe_parameters` sends no descriptor. -/
theorem describeParametersHandler_some (storage : MyParameter) (header : RequestId)
    (req : DescribeParameters.Request) :
    describeParametersHandler storage (some (header, req)) =
      (.ok (some (header, {})), storage) := rfl

/-- The storage after an entry is the one `set_parameter` leaves. -/
theorem entryMachine_post (storage : MyParameter) (param : Parameter) :
    ((entryMachine T).step storage param).2 =
      (storage.setParameter T param.name param.value).2 := rfl

/-- An entry is reported successful exactly if `set_parameter` returned true. -/
theorem entryMachine_successful (storage : MyParameter) (param : Parameter) :
    ((entryMachine T).step storage param).1.successful =
      (storage.setParameter T param.name param.value).1 := rfl

end MyParameterService

end Rclmine
