import Rclmine.ParameterServer.Linearizable
import Rclmine.ParameterService.Entries

/-!
# What the clients of the parameter server see

Consequences of linearizability for the responses the clients get, in every run of the system: from
any executor and any storage, with requests sent at any time, lost, taken in any order, and with
failing calls. No request declares a name or changes the class stored for one, so the requests to
`set_parameters`, `list_parameters` and `describe_parameters` are answered as they would be on the
first storage; only the values that `get_parameters` returns depend on what happened before.

The module introduces:

* `SettledBy T storage`: the response to a request is settled by the first storage, up to the values
  of parameters (`responses_settled`);
* `written T storage a n`: the value a request leaves for a name. The value of a name is the one
  left by the last request that writes it (`find_run`);
* `MayRead`: the value of a name is not stale, from the point of view of the clients
  (`reads_not_stale`);
* `answers_private`: what a client reads of parameters that nobody else writes depends on its own
  requests alone;
* `InTurn`: a request that was taken is answered, in turn, unless `rcl_send_response` fails for its
  own response (`taken_answered`).
-/

namespace Rclmine.ParameterServer

open Linearizability MyParameterService MyParameter World

variable {E : Type} {R : Rcl E} {T : ParameterType} {executor : MyExecutor Callback}
  {storage : MyParameter} {actions : List (Action E)} {s : World}

/-- The history of a run is one of the parameter object. -/
theorem valid_exec (h : exec R T (start executor storage) actions = some s) :
    Valid (parameterObject T) storage s.history :=
  valid_of_reachable (refines_exec (sequenceFresh_start executor storage) h)

/-- The storage is the one that the requests taken so far lead to. -/
theorem storage_exec (h : exec R T (start executor storage) actions = some s) :
    s.storage = (parameterObject T).run storage ((taken s.history).map Prod.snd) :=
  (linearized_of_reachable (refines_exec (sequenceFresh_start executor storage) h)).final

/-! ### What no request changes -/

/-- No request changes the stored classes. -/
theorem storedClass_object (storage : MyParameter) (request : Request) :
    storedClass T ((parameterObject T).step storage request).2 = storedClass T storage := by
  cases request with
  | setParameters req =>
      rw [parameterObject_setParameters]
      exact storedClass_run_entries storage req.parameters
  | _ => rfl

/-- No sequence of requests changes the stored classes. -/
theorem storedClass_run (storage : MyParameter) (requests : List Request) :
    storedClass T ((parameterObject T).run storage requests) = storedClass T storage :=
  ((parameterObject T).invariant_of_step' (fun s => storedClass T s = storedClass T storage)
    (fun s a h => (storedClass_object s a).trans h) requests rfl).1

/-- The stored classes determine the declared names. -/
theorem hasParameter_congr {p q : MyParameter} (h : storedClass T p = storedClass T q)
    (n : String) : p.hasParameter n = q.hasParameter n := by
  have hclass := congrFun h n
  simpa [storedClass, hasParameter] using congrArg Option.isSome hclass

/-- So they determine the list of the names. -/
theorem getParameterNames_congr {p q : MyParameter} (h : storedClass T p = storedClass T q) :
    p.getParameterNames = q.getParameterNames := by
  refine (sortedLT_getParameterNames p).eq_of_mem_iff (sortedLT_getParameterNames q) fun n => ?_
  rw [mem_getParameterNames, mem_getParameterNames, ← hasParameter_eq_true_iff,
    ← hasParameter_eq_true_iff, hasParameter_congr h]

/-- And they determine the results of the entries of a request. -/
theorem results_congr {p q : MyParameter} (h : storedClass T p = storedClass T q)
    (parameters : List Parameter) :
    (entryMachine T).results p parameters = (entryMachine T).results q parameters := by
  rw [results_entries, results_entries]
  exact List.map_congr_left fun param _ =>
    result_congr_of_storedClass param (congrFun h param.name)

/-! ### What is settled from the start -/

/-- What the first storage says about the response to a request: everything, but for the values of
the declared parameters. -/
def SettledBy (T : ParameterType) (storage : MyParameter) : Request → Response → Prop
  | .getParameters req, .getParameters resp =>
      resp.values.map (getParameterType T) = req.names.filterMap (storedClass T storage)
  | .setParameters req, .setParameters resp =>
      resp.results = req.parameters.map fun param => ((entryMachine T).step storage param).1
  | .listParameters _, .listParameters resp => resp.names = storage.getParameterNames
  | .describeParameters _, .describeParameters resp => resp = {}
  | _, _ => False

/-- A storage with the same stored classes gives a response that is settled by the first one. -/
theorem settledBy_step {p : MyParameter} (h : storedClass T p = storedClass T storage)
    (request : Request) :
    SettledBy T storage request ((parameterObject T).step p request).1 := by
  cases request with
  | getParameters req =>
      show (req.names.filterMap p.find).map (getParameterType T) = _
      rw [List.map_filterMap, ← h]
      rfl
  | setParameters req =>
      rw [parameterObject_setParameters, results_congr h, results_entries]
      rfl
  | listParameters req =>
      rw [parameterObject_listParameters]
      exact getParameterNames_congr h
  | describeParameters req => rfl

/-- The stored classes are those of the first storage in every run. -/
theorem storedClass_exec (h : exec R T (start executor storage) actions = some s) :
    storedClass T s.storage = storedClass T storage := by
  rw [storage_exec h]
  exact storedClass_run storage _

/-- A response belongs to a request that was sent before it, and is settled by the first storage. -/
theorem exists_request_settled (h : exec R T (start executor storage) actions = some s)
    {before after : List (Linearizability.Event RequestId Request Response)} {i : RequestId}
    {resp : Response} (heq : s.history = before ++ .respond i resp :: after) :
    ∃ request, .send i request ∈ before ∧ SettledBy T storage request resp := by
  have hv := valid_exec h
  rw [heq] at hv
  obtain ⟨earlier, request, later, -, hsend, -, rfl⟩ := hv.exists_earlier
  exact ⟨request, hsend, settledBy_step (storedClass_run storage _) request⟩

/-- In every run of the system a response belongs to a request sent before it, to the same service,
and is settled by the storage the run starts from: the flags and reasons of a set, the names of a
list, and how many values of which classes a get returns. The storage always has the names of the
first one, each with a value of the same class. -/
theorem responses_settled (h : exec R T (start executor storage) actions = some s) :
    (∀ before i resp after, s.history = before ++ .respond i resp :: after →
      ∃ request, .send i request ∈ before ∧ SettledBy T storage request resp) ∧
    (∀ n, storedClass T s.storage n = storedClass T storage n) ∧
    s.storage.getParameterNames = storage.getParameterNames :=
  ⟨fun _ _ _ _ heq => exists_request_settled h heq, congrFun (storedClass_exec h),
    getParameterNames_congr (storedClass_exec h)⟩

theorem responses_settled_sample :
    ∃ s, exec Rcl.reference .rclInterfaces (start sampleExecutor sampleStorage) sampleActions =
        some s ∧
      (∀ before i resp after, s.history = before ++ .respond i resp :: after →
        ∃ request, .send i request ∈ before ∧
          SettledBy .rclInterfaces sampleStorage request resp) ∧
      (∀ n, storedClass .rclInterfaces s.storage n =
        storedClass .rclInterfaces sampleStorage n) ∧
      s.storage.getParameterNames = sampleStorage.getParameterNames := by
  have hruns : (exec Rcl.reference .rclInterfaces (start sampleExecutor sampleStorage)
      sampleActions).isSome = true := by decide
  obtain ⟨s, hs⟩ := Option.isSome_iff_exists.1 hruns
  exact ⟨s, hs, responses_settled hs⟩

/-! ### Which value a get returns -/

/-- The value a request leaves for `n`, if it writes it: that of its last successful entry. Whether
an entry is successful is settled by the first storage. -/
def written (T : ParameterType) (storage : MyParameter) (n : String) :
    Request → Option ParameterValue
  | .setParameters req => lastSuccessful n ((entryMachine T).log storage req.parameters)
  | _ => none

/-- The value left for `n` by the last of the requests that writes it. -/
def lastWritten (T : ParameterType) (storage : MyParameter) (n : String)
    (requests : List (RequestId × Request)) : Option ParameterValue :=
  requests.reverse.findSome? fun p => written T storage n p.2

theorem lastWritten_snoc (n : String) (requests : List (RequestId × Request))
    (p : RequestId × Request) :
    lastWritten T storage n (requests ++ [p]) =
      (written T storage n p.2).or (lastWritten T storage n requests) := by
  simp [lastWritten, List.findSome?_cons]
  cases written T storage n p.2 <;> rfl

/-- The stored classes determine the results of the entries of a request. -/
theorem log_congr {p q : MyParameter} (h : storedClass T p = storedClass T q)
    (parameters : List Parameter) :
    (entryMachine T).log p parameters = (entryMachine T).log q parameters := by
  rw [← Mealy.zip_results, ← Mealy.zip_results, results_congr h]

/-- What a request does to the value of a name. -/
theorem find_object {p : MyParameter} (h : storedClass T p = storedClass T storage)
    (request : Request) (n : String) :
    ((parameterObject T).step p request).2.find n =
      (written T storage n request).or (p.find n) := by
  cases request with
  | setParameters req =>
      rw [parameterObject_setParameters, find_run_entries, log_congr h]
      rfl
  -- the other services only read
  | _ => rfl

/-- After any requests a name has the value left by the last one that writes it, and its first value
if there is none. -/
theorem find_run (storage : MyParameter) (requests : List (RequestId × Request)) (n : String) :
    ((parameterObject T).run storage (requests.map Prod.snd)).find n =
      (lastWritten T storage n requests).or (storage.find n) := by
  induction requests using List.reverseRecOn with
  | nil => rfl
  | append_singleton requests p ih =>
      -- the last request decides if it writes the name, and the ones before it otherwise
      rw [List.map_append, Mealy.run_append, lastWritten_snoc, Option.or_assoc, ← ih]
      exact find_object (storedClass_run storage _) p.2 n

/-- The client 7 sets a parameter, and after the response the client 8 reads it. -/
def readAfterWrite : List (Action Environment) :=
  [.sendRequest 7 2 (.setParameters ⟨[⟨"n", { type := 1, integerValue := 5 }⟩]⟩), .spin {},
    .takeRequest none, .takeRequest (some 0), .sendResponse .ok,
    .sendRequest 8 1 (.getParameters ⟨["m", "n"]⟩), .spin {}, .takeRequest (some 0),
    .sendResponse .ok]

/-- The names whose values a request asks for. -/
def Request.reads : Request → List String
  | .getParameters req => req.names
  | _ => []

/-- The requests of the client `c` among those taken in a history. -/
def takenOf (c : ℕ) (h : List (Event RequestId Request Response)) : List (RequestId × Request) :=
  (taken h).filter fun p => p.1.writerGuid = c

/-- What the client `c` asks for is written by nobody else in the history. -/
def PrivateTo (T : ParameterType) (storage : MyParameter) (c : ℕ)
    (h : List (Event RequestId Request Response)) : Prop :=
  ∀ p ∈ takenOf c h, ∀ n ∈ p.2.reads, ∀ q ∈ taken h, q.1.writerGuid ≠ c →
    written T storage n q.2 = none

/-- The response to a request is determined by the stored classes and the values it asks for. -/
theorem response_congr {p q : MyParameter} (hclass : storedClass T p = storedClass T q)
    {request : Request} (hreads : ∀ n ∈ request.reads, p.find n = q.find n) :
    ((parameterObject T).step p request).1 = ((parameterObject T).step q request).1 := by
  cases request with
  | getParameters req =>
      have hvalues : req.names.filterMap p.find = req.names.filterMap q.find :=
        List.filterMap_congr hreads
      simp only [parameterObject, hvalues]
  | setParameters req =>
      rw [parameterObject_setParameters, parameterObject_setParameters, results_congr hclass]
  | listParameters req =>
      rw [parameterObject_listParameters, parameterObject_listParameters,
        getParameterNames_congr hclass]
  | describeParameters req => rfl

/-- If only the client `c` writes a name, its last value is that of the client's last write. -/
theorem lastWritten_filter {c : ℕ} {n : String} {requests : List (RequestId × Request)}
    (h : ∀ q ∈ requests, q.1.writerGuid ≠ c → written T storage n q.2 = none) :
    lastWritten T storage n (requests.filter fun p => p.1.writerGuid = c) =
      lastWritten T storage n requests := by
  induction requests using List.reverseRecOn with
  | nil => rfl
  | append_singleton requests p ih =>
      rw [List.forall_mem_append, List.forall_mem_singleton] at h
      rw [List.filter_append, lastWritten_snoc, ← ih h.1]
      by_cases hc : p.1.writerGuid = c
      · simp [hc, lastWritten_snoc]
      · -- the request of another client is left out and does not write the name
        simp [hc, h.2 hc]

/-- An answer to a request of the client is the one after its earlier requests alone, if what it
asks for is written by nobody else. -/
theorem answer_private {c : ℕ} {h : List (Event RequestId Request Response)}
    (hprivate : PrivateTo T storage c h) {i : RequestId} {resp : Response} (hi : i.writerGuid = c)
    (hanswer : Linearizability.Answer (parameterObject T) storage (taken h) i resp) :
    Linearizability.Answer (parameterObject T) storage (takenOf c h) i resp := by
  obtain ⟨before, request, after, htaken, rfl⟩ := hanswer
  have hsplit : takenOf c h = (before.filter fun p => p.1.writerGuid = c) ++ (i, request) ::
      (after.filter fun p => p.1.writerGuid = c) := by
    rw [takenOf, htaken, List.filter_append, List.filter_cons_of_pos (by simpa using hi)]
  refine ⟨_, request, _, hsplit, ?_⟩
  -- both executions have the classes of the first storage; what is left are the values read
  refine response_congr ((storedClass_run _ _).trans (storedClass_run _ _).symm) fun n hn => ?_
  rw [find_run, find_run, lastWritten_filter fun q hq hc => ?_]
  exact hprivate (i, request) (by simp [hsplit]) n hn q (by simp [htaken, hq]) hc

/-- There is one answer to a request that is taken once. -/
theorem answer_unique {requests : List (RequestId × Request)} {i : RequestId}
    {resp resp' : Response} (hnodup : (requests.map Prod.fst).Nodup)
    (h : Linearizability.Answer (parameterObject T) storage requests i resp)
    (h' : Linearizability.Answer (parameterObject T) storage requests i resp') : resp = resp' := by
  obtain ⟨before, a, after, hsplit, rfl⟩ := h
  obtain ⟨before', a', after', hsplit', rfl⟩ := h'
  obtain rfl : a = a' := by
    have heq := List.inj_on_of_nodup_map hnodup (x := (i, a)) (by simp [hsplit])
      (y := (i, a')) (by simp [hsplit']) rfl
    exact (Prod.mk.inj heq).2
  -- so the list splits at the request in one way only
  have hnodup' := hnodup.of_map
  rw [hsplit, List.nodup_middle, List.nodup_cons, List.mem_append, not_or] at hnodup'
  rw [hsplit, List.append_cons_inj_of_notMem hnodup'.1.1 hnodup'.1.2] at hsplit'
  rw [hsplit'.1]

/-- Other clients cannot influence what a client reads of the parameters that they do not write.
Take two runs from the same storage, with any executors, wait-set functions, schedules and failures,
in which the same requests of a client are taken in the same order and what they ask for is written
by nobody else: every request of the client that is answered in both gets the same response. -/
theorem answers_private {E' : Type} {R' : Rcl E'} {executor' : MyExecutor Callback}
    {actions' : List (Action E')} {s' : World} {c : ℕ}
    (h : exec R T (start executor storage) actions = some s)
    (h' : exec R' T (start executor' storage) actions' = some s')
    (hsame : takenOf c s.history = takenOf c s'.history)
    (hprivate : PrivateTo T storage c s.history) (hprivate' : PrivateTo T storage c s'.history)
    {i : RequestId} {resp resp' : Response} (hi : i.writerGuid = c)
    (hresp : .respond i resp ∈ s.history) (hresp' : .respond i resp' ∈ s'.history) :
    resp = resp' := by
  have hv := valid_exec h
  have hanswer := answer_private hprivate hi (hv.answer hresp)
  have hanswer' := answer_private hprivate' hi ((valid_exec h').answer hresp')
  -- both are answers after the same requests of the client
  rw [← hsame] at hanswer'
  refine answer_unique ?_ hanswer hanswer'
  exact hv.nodup_taken.sublist (List.filter_sublist.map Prod.fst)

/-- The client 8 reads a parameter. -/
def readAlone : List (Action Environment) :=
  [.sendRequest 8 1 (.getParameters ⟨["n"]⟩), .spin {}, .takeRequest (some 0), .sendResponse .ok]

/-- It reads the parameter after the client 7 tried to set others. -/
def readAmongOthers : List (Action Environment) :=
  [.sendRequest 7 2 (.setParameters ⟨[⟨"m", { type := 1 }⟩, ⟨"n", { type := 2 }⟩]⟩),
    .sendRequest 8 1 (.getParameters ⟨["n"]⟩), .spin {}, .takeRequest none,
    .takeRequest (some 0), .sendResponse .error, .spin {}, .takeRequest (some 0),
    .sendResponse .ok]

/-- The history of `readAlone`. -/
def readAloneHistory : List (Event RequestId Request Response) :=
  [.send ⟨8, 1⟩ (.getParameters ⟨["n"]⟩), .take ⟨8, 1⟩ (.getParameters ⟨["n"]⟩),
    .respond ⟨8, 1⟩ (.getParameters { values := [{ type := 1 }] })]

/-- The history of `readAmongOthers`. -/
def readAmongOthersHistory : List (Event RequestId Request Response) :=
  [.send ⟨7, 1⟩ (.setParameters ⟨[⟨"m", { type := 1 }⟩, ⟨"n", { type := 2 }⟩]⟩),
    .send ⟨8, 1⟩ (.getParameters ⟨["n"]⟩),
    .take ⟨7, 1⟩ (.setParameters ⟨[⟨"m", { type := 1 }⟩, ⟨"n", { type := 2 }⟩]⟩),
    .take ⟨8, 1⟩ (.getParameters ⟨["n"]⟩),
    .respond ⟨8, 1⟩ (.getParameters { values := [{ type := 1 }] })]

theorem answers_private_amongOthers :
    ∃ s s', exec Rcl.reference .rclInterfaces (start sampleExecutor sampleStorage) readAlone =
        some s ∧
      exec Rcl.reference .rclInterfaces (start sampleExecutor sampleStorage) readAmongOthers =
        some s' ∧
      ∃ resp, .respond ⟨8, 1⟩ resp ∈ s.history ∧
        ∀ resp', .respond ⟨8, 1⟩ resp' ∈ s'.history → resp = resp' := by
  have hhistory : (exec Rcl.reference .rclInterfaces (start sampleExecutor sampleStorage)
      readAlone).map (fun s => s.history) = some readAloneHistory := by decide
  have hhistory' : (exec Rcl.reference .rclInterfaces (start sampleExecutor sampleStorage)
      readAmongOthers).map (fun s => s.history) = some readAmongOthersHistory := by decide
  obtain ⟨s, hs, hs₁⟩ := Option.map_eq_some_iff.1 hhistory
  obtain ⟨s', hs', hs₁'⟩ := Option.map_eq_some_iff.1 hhistory'
  have hsame : takenOf 8 s.history = takenOf 8 s'.history := by
    rw [hs₁, hs₁']
    decide
  have hprivate : PrivateTo .rclInterfaces sampleStorage 8 readAloneHistory := by
    unfold PrivateTo
    decide
  have hprivate' : PrivateTo .rclInterfaces sampleStorage 8 readAmongOthersHistory := by
    unfold PrivateTo
    decide
  have hresp : .respond ⟨8, 1⟩ (.getParameters { values := [{ type := 1 }] }) ∈ s.history := by
    rw [hs₁]
    decide
  have hi : (⟨8, 1⟩ : RequestId).writerGuid = 8 := rfl
  exact ⟨s, s', hs, hs', _, hresp, fun _ hresp' =>
    answers_private hs hs' hsame (hs₁ ▸ hprivate) (hs₁' ▸ hprivate') hi hresp hresp'⟩

/-! ### Every request that is taken is answered in turn -/

/-- A response to the request `i` was sent. -/
def Answered (s : World) (i : RequestId) : Prop :=
  ∃ resp, .respond i resp ∈ s.history

/-- A handler has computed the response to the request `i` and not yet sent it. -/
def AtWork (s : World) (i : RequestId) : Prop :=
  ∃ resp, s.owed = some (i, resp)

/-- The action is a failing call of `rcl_send_response` with the response to the request `i`. -/
def FailsToSend (i : RequestId) (s : World) : Action E → Prop
  | .sendResponse ret => ret ≠ .ok ∧ AtWork s i
  | _ => False

/-- The send of the response to the request `i` failed in the run of the actions from `s`. -/
def SendFailed (R : Rcl E) (T : ParameterType) (s : World) (actions : List (Action E))
    (i : RequestId) : Prop :=
  GuardedRun.Occurs (step R T) (FailsToSend i) s actions

/-- The requests that were taken, in order. -/
def takenIds (s : World) : List RequestId :=
  (taken s.history).map Prod.fst

/-- The requests that were answered, in order, and the one a handler is at work on. -/
def servedIds (s : World) : List RequestId :=
  (responses s.history).map Prod.fst ++ (s.owed.map Prod.fst).toList

theorem mem_servedIds {i : RequestId} : i ∈ servedIds s ↔ Answered s i ∨ AtWork s i := by
  simp [servedIds, Answered, AtWork]

/-- What becomes of the requests taken in a run from `s₀` to `s`. -/
structure InTurn (R : Rcl E) (T : ParameterType) (s₀ : World) (actions : List (Action E))
    (s : World) : Prop where
  /-- Each of them was answered, or a handler is at work on it, or the send of its own response
  failed; and this happens to no other request. -/
  accounted : ∀ i, i ∈ takenIds s ↔ Answered s i ∨ AtWork s i ∨ SendFailed R T s₀ actions i
  /-- No request is answered while a handler is still at work on it. -/
  notBoth : ∀ i, Answered s i → ¬ AtWork s i
  /-- Nor did the send fail for a request that is answered or being handled. -/
  notFailed : ∀ i, Answered s i ∨ AtWork s i → ¬ SendFailed R T s₀ actions i
  /-- The responses come in the order in which the requests were taken. -/
  order : (servedIds s).Sublist (takenIds s)
  /-- No request is taken twice. -/
  once : (takenIds s).Nodup

/-- A step takes a request, which is then at work, or loses the response to the last request served,
or keeps the turns as they are. -/
theorem turn_cases {s' : World} {a : Action E} (hstep : step R T s a = some s') :
    (takenIds s' = takenIds s ∧ servedIds s' = servedIds s ∧ ∀ i, ¬ FailsToSend i s a) ∨
    (∃ i, takenIds s' = takenIds s ++ [i] ∧ servedIds s' = servedIds s ++ [i] ∧
      ∀ j, ¬ FailsToSend j s a) ∨
    ∃ i, takenIds s' = takenIds s ∧ servedIds s = servedIds s' ++ [i] ∧
      ∀ j, FailsToSend j s a ↔ j = i := by
  cases effect_of_step hstep with
  | sendRequest writerGuid service request =>
      exact Or.inl ⟨by simp [takenIds], by simp [servedIds], fun _ => id⟩
  | loseRequest i before p after _ => exact Or.inl ⟨rfl, rfl, fun _ => id⟩
  | spin e _ _ => exact Or.inl ⟨rfl, rfl, fun _ => id⟩
  | takeNothing d todo _ howed => exact Or.inl ⟨rfl, by simp [servedIds, howed], fun _ => id⟩
  | takeRequest i d todo before p after _ howed _ _ =>
      -- no response was owed before, and now it is the one to this request
      refine Or.inr (Or.inl ⟨p.header, by simp [takenIds], ?_, fun _ => id⟩)
      simp [servedIds, howed]
  | sendResponse header resp howed =>
      exact Or.inl ⟨by simp [takenIds], by simp [servedIds, howed], fun _ h => h.1 rfl⟩
  | sendFailed ret header resp howed hret =>
      refine Or.inr (Or.inr ⟨header, rfl, by simp [servedIds, howed], fun j => ?_⟩)
      simp [FailsToSend, AtWork, howed, hret, eq_comm]
  | runOther d todo _ _ => exact Or.inl ⟨rfl, rfl, fun _ => id⟩

/-- The invariant of a run: what was taken is served or its send failed, and not both. -/
structure Turns (R : Rcl E) (T : ParameterType) (s₀ : World) (actions : List (Action E))
    (s : World) : Prop where
  order : (servedIds s).Sublist (takenIds s)
  accounted : ∀ i, i ∈ takenIds s ↔ i ∈ servedIds s ∨ SendFailed R T s₀ actions i
  notFailed : ∀ i ∈ servedIds s, ¬ SendFailed R T s₀ actions i

/-- Every step keeps the invariant, as no request is taken twice. -/
theorem Turns.step {s₀ s' : World} {a : Action E} (h : Turns R T s₀ actions s)
    (hexec : exec R T s₀ actions = some s) (hstep : World.step R T s a = some s')
    (honce : (takenIds s').Nodup) : Turns R T s₀ (actions ++ [a]) s' := by
  have hfailed (i : RequestId) : SendFailed R T s₀ (actions ++ [a]) i ↔
      SendFailed R T s₀ actions i ∨ FailsToSend i s a := GuardedRun.occurs_snoc hexec
  rcases turn_cases hstep with ⟨htaken, hserved, hnone⟩ | ⟨i, htaken, hserved, hnone⟩ |
    ⟨i, htaken, hserved, hsend⟩
  · refine ⟨by rw [htaken, hserved]; exact h.order, fun j => ?_, fun j hj => ?_⟩
    · rw [htaken, hserved, hfailed, h.accounted]
      simp [hnone]
    · rw [hfailed, not_or]
      exact ⟨h.notFailed j (hserved ▸ hj), hnone j⟩
  · rw [htaken, List.nodup_append'] at honce
    obtain ⟨-, -, hnew⟩ := honce
    refine ⟨by rw [htaken, hserved]; exact h.order.append_right [i], fun j => ?_, fun j hj => ?_⟩
    · rw [htaken, hserved, hfailed, List.mem_append, List.mem_append, h.accounted]
      simp [hnone, or_right_comm]
    · rw [hfailed, not_or]
      refine ⟨fun hj' => ?_, hnone j⟩
      rw [hserved, List.mem_append] at hj
      -- the new request was not taken before, so its send did not fail before
      rcases hj with hj | hj
      · exact h.notFailed j hj hj'
      · exact hnew ((h.accounted j).2 (Or.inr hj')) hj
  · have hlast : (servedIds s' ++ [i]).Nodup := by
      rw [← hserved]
      exact (htaken ▸ honce).sublist h.order
    rw [List.nodup_append'] at hlast
    obtain ⟨-, -, hother⟩ := hlast
    refine ⟨?_, fun j => ?_, fun j hj => ?_⟩
    · rw [htaken]
      exact (List.sublist_append_left _ [i]).trans (hserved ▸ h.order)
    · rw [htaken, hfailed, hsend, h.accounted, hserved, List.mem_append, List.mem_singleton,
        or_assoc, or_comm (a := j = i)]
    · rw [hfailed, hsend, not_or]
      refine ⟨h.notFailed j (hserved ▸ List.mem_append_left _ hj), ?_⟩
      rintro rfl
      exact hother hj (List.mem_singleton_self j)

/-- No request is taken twice in a run. -/
theorem nodup_takenIds (h : exec R T (start executor storage) actions = some s) :
    (takenIds s).Nodup :=
  (valid_exec h).nodup_taken

/-- Every run keeps the invariant. -/
theorem turns_exec (h : exec R T (start executor storage) actions = some s) :
    Turns R T (start executor storage) actions s := by
  have hinv := GuardedRun.exec_invariant
    (fun as t => exec R T (start executor storage) as = some t ∧
      Turns R T (start executor storage) as t)
    ⟨rfl, List.nil_sublist _, fun i => ?_, fun i hi => ?_⟩
    (fun as t a t' ⟨ht, hturns⟩ hstep => ?_) h
  · exact hinv.2
  · simp [takenIds, servedIds, start, responses, SendFailed, GuardedRun.not_occurs_nil]
  · simp [servedIds, start, responses] at hi
  · have ht' : exec R T (start executor storage) (as ++ [a]) = some t' :=
      GuardedRun.exec_snoc.2 ⟨t, ht, hstep⟩
    exact ⟨ht', hturns.step ht hstep (nodup_takenIds ht')⟩

/-- In every run of the system the requests taken are answered in the order in which they are taken,
and none is forgotten: of every one of them exactly one holds, that it was answered, that its
handler is still at work on it, or that `rcl_send_response` failed for its own response. If no send
failed and no handler is at work, they are all answered, once each. -/
theorem taken_answered (h : exec R T (start executor storage) actions = some s) :
    InTurn R T (start executor storage) actions s ∧
      ((∀ i, ¬ SendFailed R T (start executor storage) actions i) → s.owed = none →
        (responses s.history).map Prod.fst = (taken s.history).map Prod.fst) := by
  have hturns := turns_exec h
  have honce := nodup_takenIds h
  have hserved := honce.sublist hturns.order
  constructor
  · refine ⟨fun i => ?_, fun i hanswered hwork => ?_,
      fun i hi => hturns.notFailed i (mem_servedIds.2 hi), hturns.order, honce⟩
    · rw [hturns.accounted, mem_servedIds, or_assoc]
    · obtain ⟨resp, hresp⟩ := hanswered
      obtain ⟨resp', hresp'⟩ := hwork
      rw [servedIds, hresp', List.nodup_append'] at hserved
      exact hserved.2.2 (List.mem_map_of_mem (mem_responses.2 hresp)) (by simp)
  · intro hfailed howed
    have heq : servedIds s = (responses s.history).map Prod.fst := by simp [servedIds, howed]
    have horder := hturns.order
    rw [heq] at horder
    refine horder.eq_of_length_le (honce.subperm fun i hi => ?_).length_le
    exact heq ▸ ((hturns.accounted i).1 hi).resolve_right (hfailed i)

/-- A failed send is one of the actions. -/
theorem exists_of_sendFailed {s₀ : World} {i : RequestId} (h : SendFailed R T s₀ actions i) :
    ∃ ret, .sendResponse ret ∈ actions ∧ ret ≠ .ok := by
  obtain ⟨before, a, after, t, rfl, -, hsend⟩ := h
  cases a with
  | sendResponse ret => exact ⟨ret, by simp, hsend.1⟩
  | _ => exact hsend.elim

theorem taken_answered_sample :
    ∃ s s', exec Rcl.reference .rclInterfaces (start sampleExecutor sampleStorage) sampleActions =
        some s ∧
      InTurn Rcl.reference .rclInterfaces (start sampleExecutor sampleStorage) sampleActions s ∧
      SendFailed Rcl.reference .rclInterfaces (start sampleExecutor sampleStorage) sampleActions
        ⟨7, 1⟩ ∧
      exec Rcl.reference .rclInterfaces (start sampleExecutor sampleStorage) readAfterWrite =
        some s' ∧
      (responses s'.history).map Prod.fst = (taken s'.history).map Prod.fst := by
  have hstate : (exec Rcl.reference .rclInterfaces (start sampleExecutor sampleStorage)
      sampleActions).map (fun s => (takenIds s, servedIds s)) =
        some ([⟨8, 1⟩, ⟨7, 1⟩], [⟨8, 1⟩]) := by decide
  obtain ⟨s, hs, hids⟩ := Option.map_eq_some_iff.1 hstate
  obtain ⟨htaken, hserved⟩ := Prod.mk.inj hids
  have hturn := (taken_answered hs).1
  have howed : (exec Rcl.reference .rclInterfaces (start sampleExecutor sampleStorage)
      readAfterWrite).map (fun s => s.owed) = some none := by decide
  obtain ⟨s', hs', howed'⟩ := Option.map_eq_some_iff.1 howed
  refine ⟨s, s', hs, hturn, ?_, hs', (taken_answered hs').2 (fun i hi => ?_) howed'⟩
  · -- the request `⟨7, 1⟩` was taken, and it is neither answered nor being handled
    have hfate := (hturn.accounted ⟨7, 1⟩).1 (by rw [htaken]; decide)
    rw [← or_assoc, ← mem_servedIds, hserved] at hfate
    exact hfate.resolve_left (by decide)
  · obtain ⟨ret, hmem, hret⟩ := exists_of_sendFailed hi
    simp [readAfterWrite] at hmem
    exact hret hmem

end Rclmine.ParameterServer
