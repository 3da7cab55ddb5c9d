import Rclmine.ParameterService.Entries

/-!
# Parameters do not interfere

Runs of the `set_parameters` handler, compared with one another. What a run does to a parameter
depends on the entries for its name only: not on the entries for other names, nor on how the entries
are split into requests.

The module introduces:

* `requestMachine T`: requests to the handler as a machine. A run of it is the run of all the
  entries of its requests (`run_requests`, `flatMap_outcomes`);
* `unwinding_entry`: entries for names outside a set do not interfere with the names in it;
* `unwinding_request`: where the requests of different clients name different parameters, requests
  of other clients do not interfere with the parameters of a client;
* `parameters_do_not_interfere`: what follows for pairs of runs.
-/

namespace Rclmine

open MyParameter MyParameterService

/-- A request the `set_parameters` handler takes, with its header. -/
abbrev SetRequest := RequestId × SetParameters.Request

/-- What the `set_parameters` handler hands to `rcl_send_response`, or the exception it throws. -/
abbrev SetAnswer := Except String (Option (RequestId × SetParameters.Response))

/-- Requests to the `set_parameters` handler as a machine over the storage. -/
def requestMachine (T : ParameterType) : Mealy MyParameter SetRequest SetAnswer where
  step s r := setParametersHandler T s (some r)

/-- The entries of the requests, in the order they are handled. -/
def entries (rs : List SetRequest) : List Parameter :=
  rs.flatMap fun r => r.2.parameters

/-- The entries for `n`, in the order they are handled. -/
def entriesFor (n : String) (rs : List SetRequest) : List Parameter :=
  (entries rs).filter fun p => p.name = n

/-- The entries of a request with the results that were sent for them. -/
def outcomes : SetRequest × SetAnswer → List (Parameter × SetParametersResult)
  | ((_, req), .ok (some (_, resp))) => req.parameters.zip resp.results
  -- nothing was sent
  | _ => []

/-- The flags sent for the entries for `n`, when the requests are handled from `s`. -/
def flagsFor (T : ParameterType) (s : MyParameter) (n : String) (rs : List SetRequest) :
    List Bool :=
  ((((requestMachine T).log s rs).flatMap outcomes).filter fun e => e.1.name = n).map
    fun e => e.2.successful

/-- The requests of the client `c`. -/
def requestsOf (c : ℕ) (rs : List SetRequest) : List SetRequest :=
  rs.filter fun r => r.1.writerGuid = c

/-- The requests of the client `c` with their answers, when the requests are handled from `s`. -/
def answersTo (T : ParameterType) (s : MyParameter) (c : ℕ) (rs : List SetRequest) :
    List (SetRequest × SetAnswer) :=
  ((requestMachine T).log s rs).filter fun e => e.1.1.writerGuid = c

/-- Requests of different clients have no entries for the same name. -/
def ClientsDisjoint (rs : List SetRequest) : Prop :=
  ∀ r ∈ rs, ∀ r' ∈ rs, r.1.writerGuid ≠ r'.1.writerGuid →
    ∀ p ∈ r.2.parameters, ∀ p' ∈ r'.2.parameters, p.name ≠ p'.name

variable {T : ParameterType} {s : MyParameter} {n : String} {rs rs' : List SetRequest}

/-! ### Requests and their entries -/

theorem entriesFor_cons (n : String) (r : SetRequest) (rs : List SetRequest) :
    entriesFor n (r :: rs) =
      (r.2.parameters.filter fun p => p.name = n) ++ entriesFor n rs := by
  simp [entriesFor, entries]

/-- A request runs its entries and sends their results. -/
theorem requestMachine_step (T : ParameterType) (s : MyParameter) (r : SetRequest) :
    (requestMachine T).step s r =
      (.ok (some (r.1, { results := (entryMachine T).results s r.2.parameters })),
        (entryMachine T).run s r.2.parameters) :=
  setParametersHandler_some s r.1 r.2

/-- A run of requests ends where the run of all their entries does. -/
theorem run_requests (T : ParameterType) (s : MyParameter) (rs : List SetRequest) :
    (requestMachine T).run s rs = (entryMachine T).run s (entries rs) := by
  induction rs generalizing s with
  | nil => rfl
  | cons r rs ih =>
      rw [Mealy.run_cons, requestMachine_step, ih, entries, entries, List.flatMap_cons,
        Mealy.run_append]

/-- The results sent in a run of requests are those of the run of all their entries. -/
theorem flatMap_outcomes (T : ParameterType) (s : MyParameter) (rs : List SetRequest) :
    ((requestMachine T).log s rs).flatMap outcomes = (entryMachine T).log s (entries rs) := by
  induction rs generalizing s with
  | nil => rfl
  | cons r rs ih =>
      have houtcomes : outcomes (r, ((requestMachine T).step s r).1) =
          (entryMachine T).log s r.2.parameters := by
        rw [requestMachine_step, ← Mealy.zip_results]
        rfl
      rw [Mealy.log_cons, List.flatMap_cons, houtcomes, ih, entries, entries, List.flatMap_cons,
        Mealy.log_append, requestMachine_step]

/-! ### Entries do not interfere -/

/-- What the storage holds for the names in `N`. -/
def valuesOf (N : Set String) (s : MyParameter) (n : N) : Option ParameterValue :=
  s.find n

theorem valuesOf_eq_iff {N : Set String} {s s' : MyParameter} :
    valuesOf N s = valuesOf N s' ↔ ∀ n ∈ N, s.find n = s'.find n := by
  rw [funext_iff, Subtype.forall]
  rfl

/-- The value stored for its name determines the result of an entry. -/
theorem result_congr_of_find {s s' : MyParameter} {p : Parameter}
    (h : s.find p.name = s'.find p.name) :
    ((entryMachine T).step s p).1 = ((entryMachine T).step s' p).1 :=
  result_congr_of_storedClass p (by rw [storedClass, h, storedClass])

/-- The names in `N` are read and written only by the entries for them. -/
theorem unwinding_entry (T : ParameterType) (N : Set String) :
    Mealy.Unwinding (entryMachine T) Set.univ (valuesOf N) fun p => p.name ∈ N where
  view_irrelevant p _ hp s := by
    rw [valuesOf_eq_iff]
    intro n hn
    have hne : p.name ≠ n := fun h => hp (h ▸ hn)
    rw [find_entry, if_neg fun h => hne h.1]
  result_congr p _ hp s s' hview := result_congr_of_find (valuesOf_eq_iff.mp hview p.name hp)
  view_congr p _ hp s s' hview := by
    rw [valuesOf_eq_iff] at hview ⊢
    intro n hn
    rw [find_entry, find_entry, result_congr_of_find (hview p.name hp), hview n hn]

/-- Two runs with the same entries for `n` give these the same results and leave the same value for
`n`. -/
theorem log_entriesFor_congr (T : ParameterType) (s : MyParameter)
    (h : entriesFor n rs = entriesFor n rs') :
    (((entryMachine T).log s (entries rs)).filter fun e => e.1.name = n) =
        (((entryMachine T).log s (entries rs')).filter fun e => e.1.name = n) ∧
      ((requestMachine T).run s rs).find n = ((requestMachine T).run s rs').find n := by
  have hrel : ((entries rs).filter fun p => p.name ∈ ({n} : Set String)) =
      (entries rs').filter fun p => p.name ∈ ({n} : Set String) := by
    simpa [entriesFor] using h
  obtain ⟨hlog, hview⟩ := (unwinding_entry T {n}).noninterference (fun _ _ => trivial)
    (fun _ _ => trivial) (Eq.refl (valuesOf {n} s)) hrel
  rw [run_requests, run_requests]
  exact ⟨by simpa using hlog, valuesOf_eq_iff.mp hview n rfl⟩

/-- Every entry for `n` gets a flag. -/
theorem length_flagsFor (T : ParameterType) (s : MyParameter) (n : String)
    (rs : List SetRequest) : (flagsFor T s n rs).length = (entriesFor n rs).length := by
  rw [flagsFor, flatMap_outcomes, List.length_map, entriesFor]
  conv_rhs => rw [← (entryMachine T).map_fst_log s (entries rs), List.filter_map, List.length_map]
  rfl

/-! ### Requests of different clients do not interfere -/

/-- The names the client `c` has entries for. -/
def namesOf (c : ℕ) (rs : List SetRequest) : Set String :=
  {n | ∃ r ∈ rs, r.1.writerGuid = c ∧ ∃ p ∈ r.2.parameters, p.name = n}

/-- The entries in a request of the client are for names of the client. -/
theorem mem_namesOf {r : SetRequest} {c : ℕ} (hr : r ∈ rs) (hc : r.1.writerGuid = c) :
    ∀ p ∈ r.2.parameters, p.name ∈ namesOf c rs :=
  fun p hp => ⟨r, hr, hc, p, hp, rfl⟩

/-- The parameters a client names are read and written only by its own requests. -/
theorem unwinding_request (T : ParameterType) (hdisj : ClientsDisjoint rs) (c : ℕ) :
    Mealy.Unwinding (requestMachine T) {r | r ∈ rs} (valuesOf (namesOf c rs))
      fun r => r.1.writerGuid = c where
  view_irrelevant r hr hc s := by
    rw [requestMachine_step]
    refine (unwinding_entry T _).view_run_of_irrelevant s (fun _ _ => trivial) ?_
    -- a name of the client in this request would be shared by two clients
    rintro p hp ⟨r', hr', rfl, p', hp', hname⟩
    exact hdisj r hr r' hr' hc p hp p' hp' hname.symm
  result_congr r hr hc s s' hview := by
    have hresults := ((unwinding_entry T _).run_congr_of_relevant (fun _ _ => trivial)
      (mem_namesOf hr hc) hview).1
    rw [requestMachine_step, requestMachine_step, hresults]
  view_congr r hr hc s s' hview := by
    rw [requestMachine_step, requestMachine_step]
    exact ((unwinding_entry T _).run_congr_of_relevant (fun _ _ => trivial)
      (mem_namesOf hr hc) hview).2

/-- Two sequences in which every client makes the same requests have the same requests. -/
theorem mem_of_requestsOf_eq (h : ∀ c, requestsOf c rs = requestsOf c rs') {r : SetRequest}
    (hr : r ∈ rs') : r ∈ rs := by
  have hmem : r ∈ requestsOf r.1.writerGuid rs' := List.mem_filter.mpr ⟨hr, by simp⟩
  rw [← h] at hmem
  exact (List.mem_filter.mp hmem).1

/-- If only the client `c` has entries for `n`, these are the entries in its requests. -/
theorem entriesFor_requestsOf {c : ℕ}
    (h : ∀ r ∈ rs, r.1.writerGuid ≠ c → ∀ p ∈ r.2.parameters, p.name ≠ n) :
    entriesFor n (requestsOf c rs) = entriesFor n rs := by
  induction rs with
  | nil => rfl
  | cons r rs ih =>
      rw [List.forall_mem_cons] at h
      by_cases hc : r.1.writerGuid = c
      · have hkept : requestsOf c (r :: rs) = r :: requestsOf c rs := by simp [requestsOf, hc]
        rw [hkept, entriesFor_cons, entriesFor_cons, ih h.2]
      · have hdropped : requestsOf c (r :: rs) = requestsOf c rs := by simp [requestsOf, hc]
        have hnone : (r.2.parameters.filter fun p => p.name = n) = [] := by simpa using h.1 hc
        rw [hdropped, entriesFor_cons, hnone, List.nil_append, ih h.2]

/-- Where requests of different clients name different parameters, their order does not matter to
the entries for a name. -/
theorem entriesFor_eq_of_requestsOf (hdisj : ClientsDisjoint rs)
    (h : ∀ c, requestsOf c rs = requestsOf c rs') (n : String) :
    entriesFor n rs = entriesFor n rs' := by
  -- at most one client has entries for `n`
  obtain ⟨c, hc⟩ : ∃ c, ∀ r ∈ rs, r.1.writerGuid ≠ c → ∀ p ∈ r.2.parameters, p.name ≠ n := by
    by_cases hn : ∃ r ∈ rs, ∃ p ∈ r.2.parameters, p.name = n
    · obtain ⟨r, hr, p, hp, rfl⟩ := hn
      exact ⟨r.1.writerGuid, fun r' hr' hne p' hp' => hdisj r' hr' r hr hne p' hp' p hp⟩
    · exact ⟨0, fun r hr _ p hp hname => hn ⟨r, hr, p, hp, hname⟩⟩
  rw [← entriesFor_requestsOf hc, h,
    entriesFor_requestsOf fun r hr => hc r (mem_of_requestsOf_eq h hr)]

/-- The parameters do not interfere with one another. Two runs of `set_parameters` requests from the
same storage, with the same entries for `n`, send the same flags for these entries and leave the
same value for `n`, or none, whatever the other entries are and however the entries are batched. If
the requests of different clients name different parameters, only the order in which each client
makes its requests matters to the answers and to the storage. -/
theorem parameters_do_not_interfere (T : ParameterType) (s : MyParameter) :
    (∀ n rs rs', entriesFor n rs = entriesFor n rs' →
      (∀ j < (entriesFor n rs).length, ∃ b,
        (flagsFor T s n rs)[j]? = some b ∧ (flagsFor T s n rs')[j]? = some b) ∧
      ((requestMachine T).run s rs).find n = ((requestMachine T).run s rs').find n) ∧
    ∀ rs rs', ClientsDisjoint rs → (∀ c, requestsOf c rs = requestsOf c rs') →
      (∀ c, answersTo T s c rs = answersTo T s c rs') ∧
      (requestMachine T).run s rs = (requestMachine T).run s rs' := by
  constructor
  · intro n rs rs' h
    obtain ⟨hlog, hfind⟩ := log_entriesFor_congr T s h
    refine ⟨fun j hj => ?_, hfind⟩
    have hflags : flagsFor T s n rs = flagsFor T s n rs' := by
      rw [flagsFor, flagsFor, flatMap_outcomes, flatMap_outcomes, hlog]
    rw [← length_flagsFor T s] at hj
    exact ⟨_, List.getElem?_eq_getElem hj, by rw [← hflags, List.getElem?_eq_getElem hj]⟩
  · intro rs rs' hdisj h
    constructor
    · intro c
      exact ((unwinding_request T hdisj c).noninterference (fun r hr => hr)
        (fun r hr => mem_of_requestsOf_eq h hr) rfl (h c)).1
    · -- every name has the same entries in both sequences
      apply ext_find
      intro n
      exact (log_entriesFor_congr T s (entriesFor_eq_of_requestsOf hdisj h n)).2

/-- A storage with a boolean `a` and a string `b`. -/
def sampleStorage : MyParameter :=
  (({} : MyParameter).assign "a" { type := 0 }).assign "b" { type := 3, stringValue := "old" }

/-- A request of the client 1 for `a`, whose second entry is rejected. -/
def requestA : SetRequest :=
  (⟨1, 1⟩, ⟨[⟨"a", { type := 0, boolValue := true }⟩, ⟨"a", { type := 1 }⟩]⟩)

/-- A request of the client 2 for `b`. -/
def requestB : SetRequest :=
  (⟨2, 1⟩, ⟨[⟨"b", { type := 3, stringValue := "new" }⟩]⟩)

theorem parameters_do_not_interfere_sample :
    ((∀ j < 2, ∃ b,
        (flagsFor .rclInterfaces sampleStorage "a" [requestA])[j]? = some b ∧
          (flagsFor .rclInterfaces sampleStorage "a" [requestB, requestA])[j]? = some b) ∧
      ((requestMachine .rclInterfaces).run sampleStorage [requestA]).find "a" =
        ((requestMachine .rclInterfaces).run sampleStorage [requestB, requestA]).find "a") ∧
    (∀ c, answersTo .rclInterfaces sampleStorage c [requestA, requestB] =
        answersTo .rclInterfaces sampleStorage c [requestB, requestA]) ∧
      (requestMachine .rclInterfaces).run sampleStorage [requestA, requestB] =
        (requestMachine .rclInterfaces).run sampleStorage [requestB, requestA] := by
  refine ⟨(parameters_do_not_interfere .rclInterfaces sampleStorage).1 "a" [requestA]
    [requestB, requestA] (by decide), (parameters_do_not_interfere .rclInterfaces sampleStorage).2
    [requestA, requestB] [requestB, requestA] (by simp [ClientsDisjoint, requestA, requestB])
    fun c => ?_⟩
  -- each client makes one request
  by_cases h : c = 1
  · subst h
    rfl
  · simp [requestsOf, requestA, requestB, List.filter_cons, Ne.symm h]

end Rclmine
