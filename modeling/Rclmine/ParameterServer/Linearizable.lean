import Rclmine.ParameterServer.Defs

/-!
# The parameter server is linearizable

The sequential specification of the parameter service is `parameterObject T`: a request is executed
at once on the storage. It is stated with the operations of the storage alone, and the handlers are
shown to compute it (`run_some`). Everything an action of the system can do is an `Effect`, from
which the facts about its steps follow (`effect_of_step`). The system refines the single-threaded
server of this object: a step of the system is a step of that server or leaves its state alone
(`refines_step`). So the order in which requests are taken linearizes every history
(`parameterServer_linearizable`).
-/

namespace Rclmine.ParameterServer

open Linearizability MyParameterService

variable {E : Type} {R : Rcl E} {T : ParameterType}

/-- The call of `set_parameter` for an entry. -/
def setCalls (T : ParameterType) : Mealy MyParameter Parameter Bool where
  step storage param := storage.setParameter T param.name param.value

/-- The result that reports what `set_parameter` returned for an entry. -/
def reported : Parameter × Bool → SetParametersResult
  | (_, true) => { successful := true, reason := "" }
  | (param, false) => { successful := false, reason := "Failed to set parameter " ++ param.name }

/-- The sequential specification: a get returns the values of the declared names among those asked
for, a set calls `set_parameter` for its entries from left to right and reports what it returned, a
list returns the declared names, and a describe returns nothing. -/
def parameterObject (T : ParameterType) : Mealy MyParameter Request Response where
  step storage
    | .getParameters req =>
        (.getParameters { values := req.names.filterMap storage.find }, storage)
    | .setParameters req =>
        (.setParameters { results := ((setCalls T).log storage req.parameters).map reported },
          (setCalls T).run storage req.parameters)
    | .listParameters _ => (.listParameters { names := storage.parameters.keys }, storage)
    | .describeParameters _ => (.describeParameters {}, storage)

/-- The handler applies an entry by the call of `set_parameter` and reports what it returned. -/
theorem entryMachine_step (storage : MyParameter) (param : Parameter) :
    (entryMachine T).step storage param =
      (reported (param, ((setCalls T).step storage param).1),
        ((setCalls T).step storage param).2) := by
  cases h : (storage.setParameter T param.name param.value).1 <;>
    simp [entryMachine, setParametersEntry, setCalls, reported, h]

/-- A set is executed as the handler executes it. -/
theorem parameterObject_setParameters (storage : MyParameter) (req : SetParameters.Request) :
    (parameterObject T).step storage (.setParameters req) =
      (.setParameters { results := (entryMachine T).results storage req.parameters },
        (entryMachine T).run storage req.parameters) := by
  obtain ⟨hresults, hrun⟩ :=
    Mealy.results_eq_map_log (setCalls T) reported entryMachine_step storage req.parameters
  rw [hresults, hrun]
  rfl

/-- A list is executed as the handler executes it. -/
theorem parameterObject_listParameters (storage : MyParameter) (req : ListParameters.Request) :
    (parameterObject T).step storage (.listParameters req) =
      (.listParameters { names := storage.getParameterNames }, storage) := by
  rw [MyParameter.getParameterNames, Std.ExtTreeMap.map_fst_toList_eq_keys]
  rfl

/-- A handler whose take failed sends nothing and leaves the storage alone. -/
theorem run_none {callback : Callback} {storage : MyParameter} {handled : Handled Response}
    (h : callback.run T storage none = some handled) : handled = (.ok none, storage) := by
  cases callback <;> simp only [Callback.run, Option.some.injEq, reduceCtorEq] at h <;>
    exact h.symm

/-- A handler executes the request it took and sends the result with the request's header. -/
theorem run_some {callback : Callback} {storage : MyParameter} {header : RequestId}
    {request : Request} {handled : Handled Response}
    (h : callback.run T storage (some (header, request)) = some handled) :
    handled = (.ok (some (header, ((parameterObject T).step storage request).1)),
      ((parameterObject T).step storage request).2) := by
  cases callback <;> cases request <;>
    simp only [Callback.run, Option.some.injEq, reduceCtorEq] at h
  · rw [← h, getParametersHandler_some]
    rfl
  · rw [← h, setParametersHandler_some, parameterObject_setParameters]
    rfl
  · rw [← h, listParametersHandler_some, parameterObject_listParameters]
    rfl
  · rw [← h, describeParametersHandler_some]
    rfl

namespace World

/-- The state of the abstract server that a state of the system stands for. -/
def abstract (s : World) : Server MyParameter RequestId Request Response :=
  ⟨s.storage, s.pending.map fun p => (p.header, p.request), s.owed, s.history⟩

/-- The sequence numbers of the requests sent so far are used up. -/
def SequenceFresh (s : World) : Prop :=
  ∀ header request, .send header request ∈ s.history →
    header.sequenceNumber < s.nextSequence header.writerGuid

/-- No request is sent, and the abstract server makes a step or stays where it is. -/
structure Quiet (T : ParameterType) (s s' : World) : Prop where
  nextSequence : s'.nextSequence = s.nextSequence
  sends : ∀ header request, .send header request ∈ s'.history → .send header request ∈ s.history
  refines : Relation.ReflTransGen (Server.Step (parameterObject T)) s.abstract s'.abstract

variable {s s' : World}

/-- A take fails and has no effect, or a request of the service is executed. -/
theorem takeRequest_cases {d : Dispatch Callback} {todo : List (Dispatch Callback)} {i : Option ℕ}
    (h : s.takeRequest T d todo i = some s') :
    (i = none ∧ s' = { s with todo, owed := none }) ∨
      ∃ j before p after, i = some j ∧ s.pending = before ++ p :: after ∧ p.service = d.handle ∧
        s' = { s with
          storage := ((parameterObject T).step s.storage p.request).2
          todo
          owed := some (p.header, ((parameterObject T).step s.storage p.request).1)
          pending := before ++ after
          history := s.history ++ [.take p.header p.request] } := by
  simp only [takeRequest, Option.bind_eq_bind, Option.bind_eq_some_iff] at h
  obtain ⟨⟨taken, pending⟩, hdeliver, ⟨sent, storage⟩, hrun, h⟩ := h
  cases i with
  | none =>
      obtain ⟨rfl, rfl⟩ := Prod.mk.inj (Option.some.inj hdeliver)
      obtain ⟨rfl, rfl⟩ := Prod.mk.inj (run_none hrun)
      refine Or.inl ⟨rfl, ?_⟩
      simpa using h.symm
  | some i =>
      simp only [deliver, Option.bind_eq_bind, Option.bind_eq_some_iff] at hdeliver
      obtain ⟨p, hp, hdeliver⟩ := hdeliver
      split_ifs at hdeliver with hservice
      obtain ⟨rfl, rfl⟩ := Prod.mk.inj (Option.some.inj hdeliver)
      -- the handler does not throw, so it owes the response it computed
      obtain ⟨rfl, rfl⟩ := Prod.mk.inj (run_some hrun)
      obtain ⟨before, after, hpending, herase⟩ := List.exists_eraseIdx hp
      refine Or.inr ⟨i, before, p, after, rfl, hpending, hservice, ?_⟩
      rw [herase] at h
      exact (Option.some.inj h).symm

/-- What an action does. -/
inductive Effect (R : Rcl E) (T : ParameterType) (s : World) : Action E → World → Prop
  | sendRequest (writerGuid : ℕ) (service : Ptr) (request : Request) :
      Effect R T s (.sendRequest writerGuid service request) { s with
        pending := s.pending ++ [⟨service, ⟨writerGuid, s.nextSequence writerGuid⟩, request⟩]
        nextSequence :=
          Function.update s.nextSequence writerGuid (s.nextSequence writerGuid + 1)
        history := s.history ++ [.send ⟨writerGuid, s.nextSequence writerGuid⟩ request] }
  | loseRequest (i : ℕ) (before : List Pending) (p : Pending) (after : List Pending) :
      s.pending = before ++ p :: after →
        Effect R T s (.loseRequest i) { s with pending := before ++ after }
  | spin (e : E) :
      s.todo = [] → s.owed = none →
        Effect R T s (.spin e) { s with
          executor := (MyExecutor.spin R e s.executor).2
          todo := (MyExecutor.spin R e s.executor).1.calls }
  | takeNothing (d : Dispatch Callback) (todo : List (Dispatch Callback)) :
      s.todo = d :: todo → s.owed = none →
        Effect R T s (.takeRequest none) { s with todo, owed := none }
  | takeRequest (i : ℕ) (d : Dispatch Callback) (todo : List (Dispatch Callback))
      (before : List Pending) (p : Pending) (after : List Pending) :
      s.todo = d :: todo → s.owed = none → s.pending = before ++ p :: after →
      p.service = d.handle →
        Effect R T s (.takeRequest (some i)) { s with
          storage := ((parameterObject T).step s.storage p.request).2
          todo
          owed := some (p.header, ((parameterObject T).step s.storage p.request).1)
          pending := before ++ after
          history := s.history ++ [.take p.header p.request] }
  | sendResponse (header : RequestId) (resp : Response) :
      s.owed = some (header, resp) →
        Effect R T s (.sendResponse .ok) { s with
          owed := none
          history := s.history ++ [.respond header resp] }
  | sendFailed (ret : RclRet) (header : RequestId) (resp : Response) :
      s.owed = some (header, resp) → ret ≠ .ok →
        Effect R T s (.sendResponse ret) { s with owed := none }
  | runOther (d : Dispatch Callback) (todo : List (Dispatch Callback)) :
      s.todo = d :: todo → s.owed = none → Effect R T s .runOther { s with todo }

/-- Everything an action can do. -/
theorem effect_of_step {a : Action E} (hstep : step R T s a = some s') : Effect R T s a s' := by
  cases a with
  | sendRequest writerGuid service request =>
      obtain rfl := Option.some.inj hstep
      exact .sendRequest writerGuid service request
  | loseRequest i =>
      rw [step] at hstep
      split_ifs at hstep with hi
      obtain rfl := Option.some.inj hstep
      obtain ⟨before, after, hpending, herase⟩ :=
        List.exists_eraseIdx (List.getElem?_eq_getElem hi)
      rw [herase]
      exact .loseRequest i before _ after hpending
  | spin e =>
      rw [step] at hstep
      split at hstep
      · next htodo howed =>
          obtain rfl := Option.some.inj hstep
          exact .spin e htodo howed
      · cases hstep
  | takeRequest i =>
      rw [step] at hstep
      split at hstep
      · next htodo howed =>
          rcases takeRequest_cases hstep with ⟨rfl, rfl⟩ |
            ⟨j, before, p, after, rfl, hpending, hservice, rfl⟩
          · exact .takeNothing _ _ htodo howed
          · exact .takeRequest j _ _ before p after htodo howed hpending hservice
      · cases hstep
  | sendResponse ret =>
      rw [step] at hstep
      split at hstep
      · cases hstep
      · next header resp howed =>
          split_ifs at hstep with hret
          · obtain rfl := Option.some.inj hstep
            rw [hret]
            exact .sendResponse header resp howed
          · obtain rfl := Option.some.inj hstep
            exact .sendFailed ret header resp howed hret
  | runOther =>
      rw [step] at hstep
      split at hstep
      · next htodo howed =>
          split_ifs at hstep
          obtain rfl := Option.some.inj hstep
          exact .runOther _ _ htodo howed
      · cases hstep

/-- A step that only the executor sees is quiet. -/
theorem quiet_of_eq (hnext : s'.nextSequence = s.nextSequence) (hhistory : s'.history = s.history)
    (habstract : s'.abstract = s.abstract) : Quiet T s s' where
  nextSequence := hnext
  sends _ _ h := hhistory ▸ h
  refines := habstract ▸ .refl

/-- A request is sent or the step is quiet. -/
theorem step_cases {a : Action E} (hstep : step R T s a = some s') :
    (∃ writerGuid service request, a = .sendRequest writerGuid service request) ∨
      Quiet T s s' := by
  cases effect_of_step hstep with
  | sendRequest writerGuid service request => exact Or.inl ⟨writerGuid, service, request, rfl⟩
  | loseRequest i before p after hpending =>
      refine Or.inr ⟨rfl, fun _ _ h => h, .single ?_⟩
      have hlose := Server.Step.lose (M := parameterObject T) s.abstract
        (before.map fun p => (p.header, p.request)) (p.header, p.request)
        (after.map fun p => (p.header, p.request)) (by simp [abstract, hpending])
      simpa [abstract] using hlose
  | spin e _ _ => exact Or.inr (quiet_of_eq rfl rfl rfl)
  | takeNothing d todo _ howed =>
      exact Or.inr (quiet_of_eq rfl rfl (by simp [abstract, howed]))
  | takeRequest i d todo before p after _ howed hpending _ =>
      refine Or.inr ⟨rfl, fun header request hmem => by simpa using hmem, .single ?_⟩
      have htake := Server.Step.take (M := parameterObject T) s.abstract
        (before.map fun p => (p.header, p.request)) p.header p.request
        (after.map fun p => (p.header, p.request)) (by simp [abstract, hpending]) howed
      simpa [abstract] using htake
  | sendResponse header resp howed =>
      exact Or.inr ⟨rfl, fun _ _ h => by simpa using h,
        .single (Server.Step.respond s.abstract header resp howed)⟩
  | sendFailed ret header resp _ _ =>
      exact Or.inr ⟨rfl, fun _ _ h => h, .single (Server.Step.drop s.abstract)⟩
  | runOther d todo _ _ => exact Or.inr (quiet_of_eq rfl rfl rfl)

theorem sequenceFresh_start (executor : MyExecutor Callback) (storage : MyParameter) :
    (start executor storage).SequenceFresh := nofun

/-- Every step uses up the sequence number it sends. -/
theorem sequenceFresh_step {a : Action E} (h : s.SequenceFresh) (hstep : step R T s a = some s') :
    s'.SequenceFresh := by
  rcases step_cases hstep with ⟨writerGuid, service, request, rfl⟩ | hquiet
  · obtain rfl := Option.some.inj hstep
    intro header request' hmem
    rcases List.mem_append.1 hmem with hmem | hmem
    · -- an older request: the counter of its client grew or stayed
      have hlt := h header request' hmem
      by_cases hguid : header.writerGuid = writerGuid
      · simpa [hguid] using Nat.lt_succ_of_lt (hguid ▸ hlt)
      · simpa [hguid] using hlt
    · cases List.mem_singleton.1 hmem
      simp
  · intro header request hmem
    rw [hquiet.nextSequence]
    exact h header request (hquiet.sends header request hmem)

/-- A step of the system is a step of the abstract server or changes nothing there. -/
theorem refines_step {a : Action E} (h : s.SequenceFresh) (hstep : step R T s a = some s') :
    Relation.ReflTransGen (Server.Step (parameterObject T)) s.abstract s'.abstract := by
  rcases step_cases hstep with ⟨writerGuid, service, request, rfl⟩ | hquiet
  · obtain rfl := Option.some.inj hstep
    -- the header is new because the client's sequence number is
    have hsend := Server.Step.send (M := parameterObject T) s.abstract
      ⟨writerGuid, s.nextSequence writerGuid⟩ request
      fun request' hmem => lt_irrefl _ (h _ request' hmem)
    exact .single (by simpa [abstract] using hsend)
  · exact hquiet.refines

/-- A run of the system is a run of the abstract server. -/
theorem refines_exec {actions : List (Action E)} (h : s.SequenceFresh)
    (hexec : exec R T s actions = some s') :
    Relation.ReflTransGen (Server.Step (parameterObject T)) s.abstract s'.abstract := by
  have hinv := GuardedRun.exec_invariant
    (fun _ t => t.SequenceFresh ∧
      Relation.ReflTransGen (Server.Step (parameterObject T)) s.abstract t.abstract)
    ⟨h, .refl⟩
    (fun _ t a t' ht hstep =>
      ⟨sequenceFresh_step ht.1 hstep, ht.2.trans (refines_step ht.1 hstep)⟩) hexec
  exact hinv.2

end World

open World

/-- Every run of the system, from any executor and any storage, is linearized by the order in which
requests are taken; and a take that fails leaves the storage and the history alone and ends its
handler without a response. -/
theorem parameterServer_linearizable {executor : MyExecutor Callback} {storage : MyParameter}
    {actions : List (Action E)} {s : World}
    (h : exec R T (start executor storage) actions = some s) :
    Linearized (parameterObject T) storage s.history s.storage ∧
      ∀ s', step R T s (.takeRequest none) = some s' →
        s'.storage = s.storage ∧ s'.history = s.history ∧ s'.owed = none := by
  refine ⟨linearized_of_reachable (refines_exec (sequenceFresh_start executor storage) h),
    fun s' hstep => ?_⟩
  cases effect_of_step hstep with
  | takeNothing d todo _ _ => exact ⟨rfl, rfl, rfl⟩

/-- An executor with the services `get_parameters` and `set_parameters`. -/
def sampleExecutor : MyExecutor Callback where
  context := 0
  waitSet := ⟨fun k => if k = .service then [none, none] else [], fun _ => 0, true⟩
  services := [⟨1, .getParameters⟩, ⟨2, .setParameters⟩]

/-- A storage with one declared parameter. -/
def sampleStorage : MyParameter :=
  (({} : MyParameter).declareParameter "n" { type := 1 }).2

/-- A client sets a parameter and another one reads it before the first request is taken. The send
of the response to the set fails, and the executor spins again. -/
def sampleActions : List (Action Environment) :=
  [.sendRequest 7 2 (.setParameters ⟨[⟨"n", { type := 1, integerValue := 5 }⟩]⟩),
    .sendRequest 8 1 (.getParameters ⟨["m", "n"]⟩), .spin {}, .takeRequest (some 1),
    .sendResponse .ok, .takeRequest (some 0), .sendResponse .error, .spin {}]

theorem parameterServer_linearizable_sample :
    ∃ s s', exec Rcl.reference .rclInterfaces (start sampleExecutor sampleStorage) sampleActions =
        some s ∧
      Linearized (parameterObject .rclInterfaces) sampleStorage s.history s.storage ∧
      step Rcl.reference .rclInterfaces s (.takeRequest none) = some s' ∧
      s'.storage = s.storage ∧ s'.history = s.history ∧ s'.owed = none := by
  have hruns : (exec Rcl.reference .rclInterfaces (start sampleExecutor sampleStorage)
      (sampleActions ++ [.takeRequest none])).isSome = true := by decide
  obtain ⟨s', hs'⟩ := Option.isSome_iff_exists.1 hruns
  -- the last take of the run fails
  obtain ⟨s, hs, htake⟩ := GuardedRun.exec_snoc.1 hs'
  obtain ⟨hlinearized, hfailed⟩ := parameterServer_linearizable hs
  exact ⟨s, s', hs, hlinearized, htake, hfailed s' htake⟩

end Rclmine.ParameterServer
