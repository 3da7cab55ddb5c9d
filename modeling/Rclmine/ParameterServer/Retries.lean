import Rclmine.ParameterServer.Clients

/-!
# Retries are harmless

A client of the parameter server whose response got lost cannot know whether its request was
executed, and sends it again. If nobody wrote the names of a `set_parameters` request between its
two executions, the second one has the response of the first one, and everything else in the run is
as if the second one had never been executed (`retry_harmless`): the final storage and the response
to every other request.
-/

namespace Rclmine.ParameterServer

open Linearizability MyParameterService MyParameter World

variable {E : Type} {R : Rcl E} {T : ParameterType} {executor : MyExecutor Callback}
  {storage : MyParameter} {actions : List (Action E)} {s : World}

/-- None of the requests writes a name that `request` writes. -/
def Undisturbed (T : ParameterType) (storage : MyParameter) (request : Request)
    (requests : List (RequestId × Request)) : Prop :=
  ∀ n, written T storage n request ≠ none → ∀ q ∈ requests, written T storage n q.2 = none

/-- What is written for a name last, when the later requests do not write it. -/
theorem lastWritten_append_of_none {n : String} {requests later : List (RequestId × Request)}
    (h : ∀ q ∈ later, written T storage n q.2 = none) :
    lastWritten T storage n (requests ++ later) = lastWritten T storage n requests := by
  induction later using List.reverseRecOn with
  | nil => rw [List.append_nil]
  | append_singleton later q ih =>
      rw [List.forall_mem_append, List.forall_mem_singleton] at h
      rw [← List.append_assoc, lastWritten_snoc, h.2, Option.none_or, ih h.1]

/-- An undisturbed request has no effect when it is executed again. -/
theorem step_again {request : Request} (i : RequestId) (earlier : List (RequestId × Request))
    {between : List (RequestId × Request)} (h : Undisturbed T storage request between) :
    ((parameterObject T).step ((parameterObject T).run storage
        ((earlier ++ (i, request) :: between).map Prod.snd)) request).2 =
      (parameterObject T).run storage ((earlier ++ (i, request) :: between).map Prod.snd) := by
  refine ext_find fun n => ?_
  rw [find_object (storedClass_run storage _)]
  match hwritten : written T storage n request with
  | none => rfl
  | some v =>
      -- the name still has the value that the first execution wrote
      have hlast : lastWritten T storage n (earlier ++ (i, request) :: between) = some v := by
        rw [List.append_cons,
          lastWritten_append_of_none (h n (by simp [hwritten])), lastWritten_snoc, hwritten]
        rfl
      rw [find_run, hlast]
      rfl

/-- In every run of the system, if a set request `j` repeats a request `i` that was taken before it
and no request taken in between writes one of its names, both get the same response, and the final
storage and all other responses are those of a sequential execution without the repetition. -/
theorem retry_harmless (h : exec R T (start executor storage) actions = some s)
    {earlier between later : List (RequestId × Request)} {i j : RequestId}
    {req : SetParameters.Request}
    (htaken : taken s.history = earlier ++ (i, .setParameters req) :: between ++
      (j, .setParameters req) :: later)
    (hbetween : Undisturbed T storage (.setParameters req) between) :
    (∀ resp resp', .respond i resp ∈ s.history → .respond j resp' ∈ s.history → resp = resp') ∧
    s.storage = (parameterObject T).run storage
      ((earlier ++ (i, .setParameters req) :: between ++ later).map Prod.snd) ∧
    ∀ k resp, .respond k resp ∈ s.history → k ≠ j →
      Linearizability.Answer (parameterObject T) storage
        (earlier ++ (i, .setParameters req) :: between ++ later) k resp := by
  have hv := valid_exec h
  have hagain := step_again i earlier hbetween
  refine ⟨fun resp resp' hresp hresp' => ?_, ?_, fun k resp hresp hne => ?_⟩
  · -- each is the response of its own execution, and these start from the same stored classes
    have hfirst : Linearizability.Answer (parameterObject T) storage (taken s.history) i
        ((parameterObject T).step ((parameterObject T).run storage (earlier.map Prod.snd))
          (.setParameters req)).1 := ⟨earlier, _, _, by rw [htaken, List.append_assoc]; rfl, rfl⟩
    have hsecond : Linearizability.Answer (parameterObject T) storage (taken s.history) j
        ((parameterObject T).step ((parameterObject T).run storage
          ((earlier ++ (i, .setParameters req) :: between).map Prod.snd))
          (.setParameters req)).1 := ⟨_, _, later, htaken, rfl⟩
    rw [answer_unique hv.nodup_taken (hv.answer hresp) hfirst,
      answer_unique hv.nodup_taken (hv.answer hresp') hsecond]
    exact response_congr ((storedClass_run _ _).trans (storedClass_run _ _).symm) nofun
  · rw [storage_exec h, htaken]
    simp only [List.map_append, List.map_cons, Mealy.run_append, Mealy.run_cons] at hagain ⊢
    rw [hagain]
  · have hanswer := hv.answer hresp
    rw [htaken] at hanswer
    exact hanswer.remove hagain hne

/-- The client 7 sets a parameter, the response is lost, and it tries again after the client 8 read
the parameter. -/
def lostResponse : List (Action Environment) :=
  [.sendRequest 7 2 (.setParameters ⟨[⟨"n", { type := 1, integerValue := 5 }⟩]⟩), .spin {},
    .takeRequest none, .takeRequest (some 0), .sendResponse .error,
    .sendRequest 8 1 (.getParameters ⟨["n"]⟩), .spin {}, .takeRequest (some 0),
    .sendResponse .ok, .takeRequest none,
    .sendRequest 7 2 (.setParameters ⟨[⟨"n", { type := 1, integerValue := 5 }⟩]⟩), .spin {},
    .takeRequest none, .takeRequest (some 0), .sendResponse .ok]

theorem retry_harmless_lostResponse :
    ∃ s req, exec Rcl.reference .rclInterfaces (start sampleExecutor sampleStorage)
        lostResponse = some s ∧
      (∀ resp resp', .respond ⟨7, 1⟩ resp ∈ s.history → .respond ⟨7, 2⟩ resp' ∈ s.history →
        resp = resp') ∧
      s.storage = (parameterObject .rclInterfaces).run sampleStorage
        [.setParameters req, .getParameters ⟨["n"]⟩] ∧
      ∀ k resp, .respond k resp ∈ s.history → k ≠ ⟨7, 2⟩ →
        Linearizability.Answer (parameterObject .rclInterfaces) sampleStorage
          [(⟨7, 1⟩, .setParameters req), (⟨8, 1⟩, .getParameters ⟨["n"]⟩)] k resp := by
  have hhistory : (exec Rcl.reference .rclInterfaces (start sampleExecutor sampleStorage)
      lostResponse).map (fun s => taken s.history) = some ([] ++
        (⟨7, 1⟩, .setParameters ⟨[⟨"n", { type := 1, integerValue := 5 }⟩]⟩) ::
          [(⟨8, 1⟩, .getParameters ⟨["n"]⟩)] ++
        (⟨7, 2⟩, .setParameters ⟨[⟨"n", { type := 1, integerValue := 5 }⟩]⟩) :: []) := by
    decide
  obtain ⟨s, hs, htaken⟩ := Option.map_eq_some_iff.1 hhistory
  have hbetween : Undisturbed .rclInterfaces sampleStorage
      (.setParameters ⟨[⟨"n", { type := 1, integerValue := 5 }⟩]⟩)
      [(⟨8, 1⟩, .getParameters ⟨["n"]⟩)] := by
    simp [Undisturbed, written]
  exact ⟨s, _, hs, retry_harmless hs htaken hbetween⟩

end Rclmine.ParameterServer
