import Rclmine.AddTwoInts.Defs
import Rclmine.ToMathlib.RequestReply

/-!
# Every sum that is printed is right

The system of the addition service and its clients refines an exchange of requests and replies over
a lossy network (`refines_exec`), in which a reply is the exact sum of the two numbers of its
request. So every run of the system, with any number of clients, any interleaving of their spins
with those of the service, and any failing calls, prints only right sums, each request is handled at
most once and its sum printed at most once (`printed_right_once`), and if nothing gets lost and
nothing is under way every request was answered (`all_printed`).
-/

namespace Rclmine.AddTwoInts

open RequestReply (Step Reachable)

variable {E : Type} {R : Rcl E}

/-- The response is the sum of the two numbers of the request, without overflow. -/
def IsSum (req : Request) (resp : Response) : Prop :=
  resp.sum.toInt = req.a.toInt + req.b.toInt

/-- The sum that the service computes is exact. -/
theorem isSum_of_sum {req : Request} {sum : Int64} (h : req.sum = some sum) :
    IsSum req ⟨sum⟩ := by
  rw [Request.sum] at h
  -- a sum out of range is no sum
  split_ifs at h with hrange
  obtain rfl := Option.some.inj h
  rw [Int64.toInt_minValue, Int64.toInt_maxValue] at hrange
  rw [IsSum, Int64.toInt_add]
  exact Int.bmod_eq_of_le (by omega) (by omega)

/-- The requests the service printed. -/
def handledBy (output : List Line) : List (RequestId × Request) :=
  output.filterMap fun
    | .handled header req _ => some (header, req)
    | _ => none

/-- The sums the clients printed, with the identities of the requests. -/
def receivedBy (output : List Line) : List (RequestId × Response) :=
  output.filterMap fun
    | .received writerGuid sequenceNumber sum => some (⟨writerGuid, sequenceNumber⟩, ⟨sum⟩)
    | _ => none

@[simp] theorem handledBy_append (output lines : List Line) :
    handledBy (output ++ lines) = handledBy output ++ handledBy lines :=
  List.filterMap_append

@[simp] theorem receivedBy_append (output lines : List Line) :
    receivedBy (output ++ lines) = receivedBy output ++ receivedBy lines :=
  List.filterMap_append

theorem mem_receivedBy {output : List Line} {header : RequestId} {resp : Response} :
    (header, resp) ∈ receivedBy output ↔
      .received header.writerGuid header.sequenceNumber resp.sum ∈ output := by
  rw [receivedBy, List.mem_filterMap]
  constructor
  · rintro ⟨line, hline, heq⟩
    cases line <;> simp at heq
    obtain ⟨rfl, rfl⟩ := heq
    exact hline
  · exact fun h => ⟨_, h, rfl⟩

/-- Taking out one element of what is in flight. -/
theorem deliver_cases {α : Type} {inFlight rest : List α} {i : Option ℕ} {taken : Option α}
    (h : deliver inFlight i = some (taken, rest)) :
    (taken = none ∧ rest = inFlight) ∨
      ∃ before x after, taken = some x ∧ inFlight = before ++ x :: after ∧
        rest = before ++ after := by
  cases i with
  | none =>
      obtain ⟨rfl, rfl⟩ := Prod.mk.inj (Option.some.inj h)
      exact Or.inl ⟨rfl, rfl⟩
  | some i =>
      simp only [deliver, Option.bind_eq_bind, Option.bind_eq_some_iff] at h
      obtain ⟨x, hx, h⟩ := h
      obtain ⟨rfl, rfl⟩ := Prod.mk.inj (Option.some.inj h)
      obtain ⟨before, after, hsplit, herase⟩ := List.exists_eraseIdx hx
      exact Or.inr ⟨before, x, after, rfl, hsplit, herase⟩

namespace World

/-- The exchange that a state of the system stands for. -/
def exchange (s : World) : RequestReply RequestId Request Response where
  sent := s.sent
  requests := s.requests
  computed := handledBy s.output
  owed := s.service.owed
  replies := s.responses
  delivered := receivedBy s.output
  lostRequests := s.lostRequests
  lostReplies := s.lostResponses

/-- The sequence numbers of the requests sent so far are used up. -/
def SequenceFresh (s : World) : Prop :=
  ∀ header req, (header, req) ∈ s.sent →
    header.sequenceNumber < (s.client header.writerGuid).nextSequence

variable {s s' : World} {a : Action E}

/-- A step in which no client sends a request. -/
structure Quiet (s s' : World) : Prop where
  sent : s'.sent = s.sent
  nextSequence : ∀ c, (s'.client c).nextSequence = (s.client c).nextSequence
  refines : Step IsSum s.exchange s'.exchange

/-- A client sends a request with its next sequence number. -/
structure Sends (s s' : World) (writerGuid : ℕ) (req : Request) : Prop where
  sent : s'.sent = s.sent ++ [(⟨writerGuid, (s.client writerGuid).nextSequence⟩, req)]
  exchange : s'.exchange = { s.exchange with
    sent := s.sent ++ [(⟨writerGuid, (s.client writerGuid).nextSequence⟩, req)]
    requests := s.requests ++ [(⟨writerGuid, (s.client writerGuid).nextSequence⟩, req)] }
  nextSequence : ∀ c, (s'.client c).nextSequence =
    if c = writerGuid then (s.client c).nextSequence + 1 else (s.client c).nextSequence

/-- Changing a client's process without its sequence number does not change that of any client. -/
theorem nextSequence_update {writerGuid : ℕ} {p : ClientProcess}
    (h : p.nextSequence = (s.client writerGuid).nextSequence) (c : ℕ) :
    (Function.update s.client writerGuid p c).nextSequence = (s.client c).nextSequence := by
  by_cases hc : c = writerGuid
  · subst hc
    simpa using h
  · simp [hc]

/-- A step that leaves the exchange alone is quiet. -/
theorem quiet_of_eq (hnext : ∀ c, (s'.client c).nextSequence = (s.client c).nextSequence)
    (hexchange : s'.exchange = s.exchange) : Quiet s s' where
  sent := congrArg RequestReply.sent hexchange
  nextSequence := hnext
  refines := by
    rw [hexchange]
    exact .other _

/-- A callback of a client prints the sum it took, or that the take failed. -/
theorem quiet_takeResponse {writerGuid : ℕ} {p : ClientProcess}
    {taken : Option (RequestId × Response)} {responses : List (RequestId × Response)}
    {i : Option ℕ} (hnext : p.nextSequence = (s.client writerGuid).nextSequence)
    (hdeliver : deliver s.responses i = some (taken, responses))
    (hown : ∀ resp ∈ taken, resp.1.writerGuid = writerGuid) :
    Quiet s { s.setClient writerGuid p with
      responses, output := s.output ++ clientCallback writerGuid taken } := by
  rcases deliver_cases hdeliver with ⟨rfl, rfl⟩ | ⟨before, ⟨header, resp⟩, after, rfl, heq, rfl⟩
  · refine quiet_of_eq (nextSequence_update hnext) ?_
    simp [exchange, setClient, clientCallback, handledBy, receivedBy]
  · refine ⟨rfl, nextSequence_update hnext, ?_⟩
    -- the line shows the client's own identity, which is that of the response's header
    obtain rfl : header.writerGuid = writerGuid := hown _ rfl
    have hstep := Step.deliver (f := IsSum) s.exchange before (header, resp) after heq
    simpa [exchange, setClient, clientCallback, handledBy, receivedBy] using hstep

/-- The callback of the service computes the response to the request it took. -/
theorem quiet_takeRequest {looping : Looping} {taken : Option (RequestId × Request)}
    {requests : List (RequestId × Request)} {owed : Option (RequestId × Response)}
    {lines : List Line} {i : Option ℕ} (howed : s.service.owed = none)
    (hdeliver : deliver s.requests i = some (taken, requests))
    (hcallback : serviceCallback taken = some (owed, lines)) :
    Quiet s { s with
      service := { looping with owed }, requests, output := s.output ++ lines } := by
  rcases deliver_cases hdeliver with ⟨rfl, rfl⟩ | ⟨before, ⟨header, req⟩, after, rfl, heq, rfl⟩
  · obtain ⟨rfl, rfl⟩ := Prod.mk.inj (Option.some.inj hcallback)
    exact quiet_of_eq (fun _ => rfl) (by simp [exchange, howed])
  · simp only [serviceCallback, Option.bind_eq_bind, Option.bind_eq_some_iff] at hcallback
    obtain ⟨sum, hsum, hcallback⟩ := hcallback
    obtain ⟨rfl, rfl⟩ := Prod.mk.inj (Option.some.inj hcallback)
    refine ⟨rfl, fun _ => rfl, ?_⟩
    have hstep := Step.compute (f := IsSum) s.exchange before header req after ⟨sum⟩ heq howed
      (isSum_of_sum hsum)
    simpa [exchange, handledBy, receivedBy] using hstep

/-- A client sends a request or the step is quiet. -/
theorem step_cases (hstep : step R s a = some s') :
    (∃ writerGuid req, Sends s s' writerGuid req) ∨ Quiet s s' := by
  cases a with
  | request writerGuid req ret =>
      rw [step] at hstep
      split at hstep
      · split at hstep
        · obtain rfl := Option.some.inj hstep
          refine Or.inl ⟨writerGuid, req, rfl, rfl, fun c => ?_⟩
          by_cases hc : c = writerGuid <;> simp [setClient, hc]
        · -- `request` threw, and nothing was sent
          obtain rfl := Option.some.inj hstep
          exact Or.inr (quiet_of_eq (nextSequence_update rfl) rfl)
      · cases hstep
  | clientSpin writerGuid e =>
      simp only [step, Option.bind_eq_bind, Option.bind_eq_some_iff] at hstep
      obtain ⟨looping, -, hstep⟩ := hstep
      obtain rfl := Option.some.inj hstep
      exact Or.inr (quiet_of_eq (nextSequence_update rfl) rfl)
  | takeResponse writerGuid i =>
      simp only [step, Option.bind_eq_bind, Option.bind_eq_some_iff] at hstep
      -- the client takes a response to one of its own requests, or nothing
      obtain ⟨looping, -, ⟨taken, responses⟩, hdeliver, ⟨⟩, hguard, hstep⟩ := hstep
      obtain rfl := Option.some.inj hstep
      simp only [Option.guard_eq_some'] at hguard
      exact Or.inr (quiet_takeResponse rfl hdeliver hguard)
  | serviceSpin e =>
      rw [step] at hstep
      split at hstep
      · simp only [Option.bind_eq_bind, Option.bind_eq_some_iff] at hstep
        obtain ⟨looping, -, hstep⟩ := hstep
        obtain rfl := Option.some.inj hstep
        exact Or.inr (quiet_of_eq (fun _ => rfl) rfl)
      · cases hstep
  | takeRequest i =>
      rw [step] at hstep
      split at hstep
      · next howed =>
          simp only [Option.bind_eq_bind, Option.bind_eq_some_iff] at hstep
          obtain ⟨looping, -, ⟨taken, requests⟩, hdeliver, ⟨owed, lines⟩, hcallback, hstep⟩ :=
            hstep
          obtain rfl := Option.some.inj hstep
          exact Or.inr (quiet_takeRequest howed hdeliver hcallback)
      · cases hstep
  | sendResponse ret =>
      rw [step] at hstep
      split at hstep
      · cases hstep
      · next header resp howed =>
          split_ifs at hstep with hret
          · obtain rfl := Option.some.inj hstep
            exact Or.inr ⟨rfl, fun _ => rfl, .reply s.exchange (header, resp) howed⟩
          · obtain rfl := Option.some.inj hstep
            have hdrop := Step.drop (f := IsSum) s.exchange (header, resp) howed
            refine Or.inr ⟨rfl, fun _ => rfl, ?_⟩
            simpa [exchange, handledBy, receivedBy] using hdrop
  | loseRequest i =>
      rw [step] at hstep
      split at hstep
      · cases hstep
      · next p hp =>
          obtain rfl := Option.some.inj hstep
          obtain ⟨before, after, hrequests, herase⟩ := List.exists_eraseIdx hp
          rw [herase]
          exact Or.inr ⟨rfl, fun _ => rfl, .loseRequest s.exchange before p after hrequests⟩
  | loseResponse i =>
      rw [step] at hstep
      split at hstep
      · cases hstep
      · next p hp =>
          obtain rfl := Option.some.inj hstep
          obtain ⟨before, after, hresponses, herase⟩ := List.exists_eraseIdx hp
          rw [herase]
          exact Or.inr ⟨rfl, fun _ => rfl, .loseReply s.exchange before p after hresponses⟩

theorem sequenceFresh_start (service : MyExecutor Unit) (client : ℕ → MyExecutor Unit) :
    (start service client).SequenceFresh := nofun

/-- Every step uses up the sequence number it sends. -/
theorem SequenceFresh.step (h : s.SequenceFresh) (hstep : step R s a = some s') :
    s'.SequenceFresh := by
  intro header req hmem
  rcases step_cases hstep with ⟨writerGuid, req', hsends⟩ | hquiet
  · rw [hsends.nextSequence]
    rw [hsends.sent, List.mem_append, List.mem_singleton] at hmem
    rcases hmem with hmem | hmem
    · have hlt := h header req hmem
      split_ifs <;> omega
    · obtain ⟨rfl, -⟩ := Prod.mk.inj hmem
      simp
  · rw [hquiet.nextSequence]
    exact h header req (hquiet.sent ▸ hmem)

/-- A step of the system is a step of the exchange. -/
theorem refines_step (h : s.SequenceFresh) (hstep : step R s a = some s') :
    Step IsSum s.exchange s'.exchange := by
  rcases step_cases hstep with ⟨writerGuid, req, hsends⟩ | hquiet
  · rw [hsends.exchange]
    refine .send s.exchange _ req fun hmem => ?_
    -- the identity is new because the client's sequence number is
    obtain ⟨⟨header, req'⟩, hsent, heq⟩ := List.mem_map.1 hmem
    have hlt := h header req' hsent
    simp only at heq
    rw [heq] at hlt
    exact lt_irrefl _ hlt
  · exact hquiet.refines

/-- A run of the system is a run of the exchange. -/
theorem refines_exec {service : MyExecutor Unit} {client : ℕ → MyExecutor Unit}
    {actions : List (Action E)} (h : exec R (start service client) actions = some s) :
    Reachable IsSum .init s.exchange := by
  have hinv := GuardedRun.exec_invariant
    (fun _ t => t.SequenceFresh ∧ Reachable IsSum .init t.exchange)
    ⟨sequenceFresh_start service client, .refl⟩
    (fun _ t a t' ht hstep => ⟨ht.1.step hstep, ht.2.tail (refines_step ht.1 hstep)⟩) h
  exact hinv.2

end World

open World

variable {service : MyExecutor Unit} {client : ℕ → MyExecutor Unit} {actions : List (Action E)}
  {s : World}

/-- In every run of the system a sum that a client prints is that of the two numbers of the client's
own request with the printed sequence number; no client prints two sums for one sequence number; and
the service handles only requests that were sent, each at most once. -/
theorem printed_right_once (h : exec R (start service client) actions = some s) :
    (∀ c n sum, .received c n sum ∈ s.output →
      ∃ req, (⟨c, n⟩, req) ∈ s.sent ∧ sum.toInt = req.a.toInt + req.b.toInt) ∧
    ((receivedBy s.output).map Prod.fst).Nodup ∧
    handledBy s.output ⊆ s.sent ∧ ((handledBy s.output).map Prod.fst).Nodup := by
  have haccounted := RequestReply.accounted_of_reachable (refines_exec h)
  refine ⟨fun c n sum hline => ?_, haccounted.nodup_delivered, haccounted.computed_sent,
    haccounted.nodup_computed⟩
  exact haccounted.correct (i := ⟨c, n⟩) (r := ⟨sum⟩) (mem_receivedBy.2 hline)

/-- The executor of the service. -/
def serviceExecutor : MyExecutor Unit where
  context := 0
  waitSet := ⟨fun k => if k = .service then [none] else [], fun _ => 0, true⟩
  services := [⟨1, ()⟩]

/-- The executor of a client. -/
def clientExecutor : MyExecutor Unit where
  context := 0
  waitSet := ⟨fun k => if k = .client then [none] else [], fun _ => 0, true⟩
  clients := [⟨2, ()⟩]

/-- Two clients send requests, one of them two; the service takes them in another order. -/
def overtakingActions : List (Action Environment) :=
  [.request 7 ⟨1, 2⟩ .ok, .request 8 ⟨-3, 4⟩ .ok, .request 7 ⟨5, -5⟩ .ok, .serviceSpin {},
    .takeRequest (some 2), .sendResponse .ok, .serviceSpin {}, .takeRequest none,
    .serviceSpin {}, .takeRequest (some 1), .sendResponse .ok, .clientSpin 8 {},
    .takeResponse 8 (some 1), .serviceSpin {}, .takeRequest (some 0), .sendResponse .ok,
    .clientSpin 7 {}, .takeResponse 7 (some 0), .clientSpin 7 {}, .takeResponse 7 (some 0)]

theorem printed_right_once_overtaking :
    ∃ s, exec Rcl.reference (start serviceExecutor fun _ => clientExecutor) overtakingActions =
        some s ∧
      (∀ c n sum, .received c n sum ∈ s.output →
        ∃ req, (⟨c, n⟩, req) ∈ s.sent ∧ sum.toInt = req.a.toInt + req.b.toInt) ∧
      ((receivedBy s.output).map Prod.fst).Nodup ∧
      handledBy s.output ⊆ s.sent ∧ ((handledBy s.output).map Prod.fst).Nodup := by
  have hruns : (exec Rcl.reference (start serviceExecutor fun _ => clientExecutor)
      overtakingActions).isSome = true := by decide
  obtain ⟨s, hs⟩ := Option.isSome_iff_exists.1 hruns
  exact ⟨s, hs, printed_right_once hs⟩

/-- In a run in which no request and no response got lost, when none is under way any more every
request that was sent was answered: its client printed its sum, once. -/
theorem all_printed (h : exec R (start service client) actions = some s)
    (hrequests : s.requests = []) (howed : s.service.owed = none) (hresponses : s.responses = [])
    (hlost : s.lostRequests = []) (hlost' : s.lostResponses = []) :
    ((receivedBy s.output).map Prod.fst).Perm (s.sent.map Prod.fst) ∧
    ∀ c n req, (⟨c, n⟩, req) ∈ s.sent →
      ∃ sum, .received c n sum ∈ s.output ∧ sum.toInt = req.a.toInt + req.b.toInt := by
  have haccounted := RequestReply.accounted_of_reachable (refines_exec h)
  have hall := haccounted.all_delivered hrequests howed hresponses hlost hlost'
  refine ⟨hall, fun c n req hsent => ?_⟩
  have hmem : (⟨c, n⟩ : RequestId) ∈ (receivedBy s.output).map Prod.fst :=
    hall.mem_iff.2 (List.mem_map_of_mem hsent)
  obtain ⟨⟨_, resp⟩, hresp, rfl⟩ := List.mem_map.1 hmem
  obtain ⟨req', hsent', hsum⟩ := haccounted.correct hresp
  -- the identity belongs to one request only
  have heq := List.inj_on_of_nodup_map haccounted.nodup_sent hsent hsent' rfl
  obtain ⟨-, rfl⟩ := Prod.mk.inj heq
  exact ⟨resp.sum, mem_receivedBy.1 hresp, hsum⟩

theorem all_printed_overtaking :
    ∃ s, exec Rcl.reference (start serviceExecutor fun _ => clientExecutor) overtakingActions =
        some s ∧
      ((receivedBy s.output).map Prod.fst).Perm (s.sent.map Prod.fst) ∧
      ∀ c n req, (⟨c, n⟩, req) ∈ s.sent →
        ∃ sum, .received c n sum ∈ s.output ∧ sum.toInt = req.a.toInt + req.b.toInt := by
  have hquiet : (exec Rcl.reference (start serviceExecutor fun _ => clientExecutor)
      overtakingActions).map (fun s => decide (s.requests = [] ∧ s.service.owed = none ∧
        s.responses = [] ∧ s.lostRequests = [] ∧ s.lostResponses = [])) = some true := by decide
  obtain ⟨s, hs, hnothing⟩ := Option.map_eq_some_iff.1 hquiet
  obtain ⟨hrequests, howed, hresponses, hlost, hlost'⟩ := of_decide_eq_true hnothing
  exact ⟨s, hs, all_printed hs hrequests howed hresponses hlost hlost'⟩

end Rclmine.AddTwoInts
