import Mathlib.Data.List.Nodup
import Mathlib.Logic.Relation
import Rclmine.ToMathlib.ForallPrefix
import Rclmine.ToMathlib.Mealy

/-!
# Linearizability of a single-threaded server

A sequential object, given as a Mealy machine, is offered to any number of clients by one server:
requests are sent, taken by the server one at a time, executed, and answered or not. The server is
linearizable in the order in which it takes the requests.

The module introduces:

* `Event`: the events of a history, a request being sent, taken or answered;
* `Linearized M s₀ h s`: the requests taken in the history `h`, executed one after another on `s₀`,
  give the answers of `h` and the object `s`, in an order that respects real time;
* `Valid M s₀ h`: every event of `h` is allowed by the events before it. A valid history is
  linearized (`Valid.linearized`);
* `Server` and `Server.Step`: the server as a transition system, whose histories are valid
  (`linearized_of_reachable`). An implementation is linearizable if it refines this system;
* `AnsweredBefore` and `Valid.exists_earlier`: what the order of the events tells about the requests
  executed before an answered one.
-/

namespace Linearizability

variable {σ ι α ρ : Type*}

/-- An event of a history. Requests are identified by `ι`. -/
inductive Event (ι α ρ : Type*)
  /-- A client sends a request. -/
  | send (i : ι) (a : α)
  /-- The server takes a request. -/
  | take (i : ι) (a : α)
  /-- The server answers a request. -/
  | respond (i : ι) (r : ρ)
  deriving DecidableEq

/-- The requests taken in a history, in order. -/
def taken (h : List (Event ι α ρ)) : List (ι × α) :=
  h.filterMap fun
    | .take i a => some (i, a)
    | _ => none

/-- The answers given in a history, in order. -/
def responses (h : List (Event ι α ρ)) : List (ι × ρ) :=
  h.filterMap fun
    | .respond i r => some (i, r)
    | _ => none

@[simp] theorem taken_nil : taken ([] : List (Event ι α ρ)) = [] := rfl

@[simp] theorem taken_append (h h' : List (Event ι α ρ)) : taken (h ++ h') = taken h ++ taken h' :=
  List.filterMap_append

@[simp] theorem taken_send (i : ι) (a : α) : taken [(.send i a : Event ι α ρ)] = [] := rfl

@[simp] theorem taken_take (i : ι) (a : α) : taken [(.take i a : Event ι α ρ)] = [(i, a)] := rfl

@[simp] theorem taken_respond (i : ι) (r : ρ) : taken [(.respond i r : Event ι α ρ)] = [] := rfl

@[simp] theorem responses_append (h h' : List (Event ι α ρ)) :
    responses (h ++ h') = responses h ++ responses h' :=
  List.filterMap_append

@[simp] theorem responses_send (i : ι) (a : α) :
    responses [(.send i a : Event ι α ρ)] = [] := rfl

@[simp] theorem responses_take (i : ι) (a : α) :
    responses [(.take i a : Event ι α ρ)] = [] := rfl

@[simp] theorem responses_respond (i : ι) (r : ρ) :
    responses [(.respond i r : Event ι α ρ)] = [(i, r)] := rfl

@[simp] theorem mem_taken {h : List (Event ι α ρ)} {i : ι} {a : α} :
    (i, a) ∈ taken h ↔ .take i a ∈ h := by
  rw [taken, List.mem_filterMap]
  constructor
  · rintro ⟨e, he, heq⟩
    cases e <;> simp_all
  · exact fun he => ⟨_, he, rfl⟩

@[simp] theorem mem_responses {h : List (Event ι α ρ)} {i : ι} {r : ρ} :
    (i, r) ∈ responses h ↔ .respond i r ∈ h := by
  rw [responses, List.mem_filterMap]
  constructor
  · rintro ⟨e, he, heq⟩
    cases e <;> simp_all
  · exact fun he => ⟨_, he, rfl⟩

variable (M : Mealy σ α ρ) (s₀ : σ)

/-- `r` is the answer to request `i` when the requests `l` are executed one after another on
`s₀`. -/
def Answer (l : List (ι × α)) (i : ι) (r : ρ) : Prop :=
  ∃ before a after, l = before ++ (i, a) :: after ∧
    r = (M.step (M.run s₀ (before.map Prod.snd)) a).1

/-- Request `i` comes before request `j` in `l`. -/
def Precedes (l : List (ι × α)) (i j : ι) : Prop :=
  ∃ before after, l = before ++ after ∧ i ∈ before.map Prod.fst ∧ j ∈ after.map Prod.fst

/-- The order in which the requests of a history are taken linearizes it: a taken request was sent
and is taken once; an answer belongs to a taken request, which has no other, and is the one of the
sequential execution in this order, whose final object is `s`; and if a request was answered before
another one was sent, it precedes it. -/
structure Linearized (h : List (Event ι α ρ)) (s : σ) : Prop where
  sent : ∀ i a, (i, a) ∈ taken h → .send i a ∈ h
  takenOnce : ((taken h).map Prod.fst).Nodup
  answered : ∀ i r, (i, r) ∈ responses h → i ∈ (taken h).map Prod.fst
  answeredOnce : ((responses h).map Prod.fst).Nodup
  content : ∀ i r, (i, r) ∈ responses h → Answer M s₀ (taken h) i r
  final : s = M.run s₀ ((taken h).map Prod.snd)
  realTime : ∀ before i r after j b, h = before ++ .respond i r :: after → .send j b ∈ after →
    j ∈ (taken h).map Prod.fst → Precedes (taken h) i j

/-! ### Valid histories -/

/-- What an event requires of the events before it. -/
def Enabled (h : List (Event ι α ρ)) : Event ι α ρ → Prop
  | .send i _ => ∀ b, .send i b ∉ h
  | .take i a => .send i a ∈ h ∧ ∀ b, .take i b ∉ h
  | .respond i r => Answer M s₀ (taken h) i r ∧ ∀ r', .respond i r' ∉ h

/-- Every event is enabled by those before it. -/
def Valid (h : List (Event ι α ρ)) : Prop :=
  ∀ before e after, h = before ++ e :: after → Enabled M s₀ before e

variable {M s₀} {h h' : List (Event ι α ρ)} {e : Event ι α ρ} {i j : ι} {a b : α} {r : ρ} {s : σ}

theorem valid_nil : Valid M s₀ ([] : List (Event ι α ρ)) :=
  List.forallPrefix_nil

/-- A valid history is extended by an enabled event. -/
theorem valid_snoc : Valid M s₀ (h ++ [e]) ↔ Valid M s₀ h ∧ Enabled M s₀ h e :=
  List.forallPrefix_snoc

/-- A prefix of a valid history is valid. -/
theorem Valid.of_append (hv : Valid M s₀ (h ++ h')) : Valid M s₀ h :=
  (List.forallPrefix_append.1 hv).1

/-- A valid history ends in an enabled event. -/
theorem Valid.enabled (hv : Valid M s₀ (h ++ e :: h')) : Enabled M s₀ h e :=
  hv h e h' rfl

/-- An answer stays right when further requests are executed. -/
theorem Answer.append {l : List (ι × α)} (ha : Answer M s₀ l i r) (l' : List (ι × α)) :
    Answer M s₀ (l ++ l') i r := by
  obtain ⟨before, a, after, rfl, hr⟩ := ha
  exact ⟨before, a, after ++ l', by rw [List.append_assoc, List.cons_append], hr⟩

/-- There is an answer to the requests executed only. -/
theorem Answer.mem {l : List (ι × α)} (ha : Answer M s₀ l i r) : i ∈ l.map Prod.fst := by
  obtain ⟨before, a, after, rfl, -⟩ := ha
  simp

/-- A request that is taken was sent. -/
theorem Valid.send_mem (hv : Valid M s₀ h) (ht : .take i a ∈ h) : .send i a ∈ h := by
  obtain ⟨before, after, rfl⟩ := List.append_of_mem ht
  exact List.mem_append_left _ hv.enabled.1

/-- An answer in a valid history is that of the sequential execution. -/
theorem Valid.answer (hv : Valid M s₀ h) (hr : .respond i r ∈ h) :
    Answer M s₀ (taken h) i r := by
  obtain ⟨before, after, rfl⟩ := List.append_of_mem hr
  rw [taken_append]
  exact hv.enabled.1.append _

/-- No request is taken twice. -/
theorem Valid.nodup_taken (hv : Valid M s₀ h) : ((taken h).map Prod.fst).Nodup := by
  induction h using List.reverseRecOn with
  | nil => simp
  | append_singleton h e ih =>
      obtain ⟨hpre, he⟩ := valid_snoc.1 hv
      cases e with
      | send i a => simpa using ih hpre
      | respond i r => simpa using ih hpre
      | take i a =>
          -- only a take adds to the list, and it requires that there was none of this request
          have hnew : i ∉ (taken h).map Prod.fst := by simpa using he.2
          rw [taken_append, taken_take, List.map_append, List.map_singleton,
            ← List.concat_eq_append]
          exact (List.nodup_concat _ _).2 ⟨hnew, ih hpre⟩

/-- No request is answered twice. -/
theorem Valid.nodup_responses (hv : Valid M s₀ h) : ((responses h).map Prod.fst).Nodup := by
  induction h using List.reverseRecOn with
  | nil => simp [responses]
  | append_singleton h e ih =>
      obtain ⟨hpre, he⟩ := valid_snoc.1 hv
      cases e with
      | send i a => simpa [responses] using ih hpre
      | take i a => simpa [responses] using ih hpre
      | respond i r =>
          have hnew : i ∉ (responses h).map Prod.fst := by simpa using he.2
          rw [responses_append, responses_respond, List.map_append, List.map_singleton,
            ← List.concat_eq_append]
          exact (List.nodup_concat _ _).2 ⟨hnew, ih hpre⟩

/-- If a request is answered before another one is sent, it is taken before it. -/
theorem Valid.precedes {before after : List (Event ι α ρ)}
    (hv : Valid M s₀ (before ++ .respond i r :: after)) (hsend : .send j b ∈ after)
    (hj : j ∈ (taken (before ++ .respond i r :: after)).map Prod.fst) :
    Precedes (taken (before ++ .respond i r :: after)) i j := by
  rw [← List.singleton_append, taken_append, taken_append, taken_respond, List.nil_append] at hj ⊢
  refine ⟨taken before, taken after, rfl, hv.enabled.1.mem, ?_⟩
  rw [List.map_append, List.mem_append] at hj
  refine hj.resolve_left fun hearly => ?_
  -- `j` was taken, hence sent, before the answer, so it is not sent again after it
  obtain ⟨⟨j, a⟩, hmem, rfl⟩ := List.mem_map.1 hearly
  have hsent := hv.of_append.send_mem (mem_taken.1 hmem)
  obtain ⟨mid, rest, rfl⟩ := List.append_of_mem hsend
  have hv' : Valid M s₀ ((before ++ .respond i r :: mid) ++ .send j b :: rest) := by
    simpa using hv
  exact hv'.enabled a (List.mem_append_left _ hsent)

/-- A valid history is linearized by the order of its takes. -/
theorem Valid.linearized (hv : Valid M s₀ h) (hs : s = M.run s₀ ((taken h).map Prod.snd)) :
    Linearized M s₀ h s where
  sent _ _ ht := hv.send_mem (mem_taken.1 ht)
  takenOnce := hv.nodup_taken
  answered _ _ hr := (hv.answer (mem_responses.1 hr)).mem
  answeredOnce := hv.nodup_responses
  content _ _ hr := hv.answer (mem_responses.1 hr)
  final := hs
  realTime := by
    rintro before i r after j b rfl hsend hj
    exact hv.precedes hsend hj

/-! ### The server -/

/-- The state of the server: the object, the requests sent and not yet taken, the answer to the
request taken last if it is still to be given, and the history so far. -/
structure Server (σ ι α ρ : Type*) where
  /-- The object. -/
  object : σ
  /-- The requests in flight. -/
  pending : List (ι × α)
  /-- The answer still to be given. -/
  owed : Option (ι × ρ)
  /-- The events so far. -/
  history : List (Event ι α ρ)

/-- The server before any request. -/
def Server.init (s₀ : σ) : Server σ ι α ρ :=
  ⟨s₀, [], none, []⟩

variable (M) in
/-- The steps of a server of `M`: a request with a new identity is sent, a request in flight is
lost, the server takes one when it owes no answer and executes it, and an answer is given or
dropped. -/
inductive Server.Step : Server σ ι α ρ → Server σ ι α ρ → Prop
  | send (S : Server σ ι α ρ) (i : ι) (a : α) : (∀ b, .send i b ∉ S.history) →
      Step S { S with pending := S.pending ++ [(i, a)], history := S.history ++ [.send i a] }
  | lose (S : Server σ ι α ρ) (before : List (ι × α)) (p : ι × α) (after : List (ι × α)) :
      S.pending = before ++ p :: after → Step S { S with pending := before ++ after }
  | take (S : Server σ ι α ρ) (before : List (ι × α)) (i : ι) (a : α) (after : List (ι × α)) :
      S.pending = before ++ (i, a) :: after → S.owed = none →
      Step S ⟨(M.step S.object a).2, before ++ after, some (i, (M.step S.object a).1),
        S.history ++ [.take i a]⟩
  | respond (S : Server σ ι α ρ) (i : ι) (r : ρ) : S.owed = some (i, r) →
      Step S { S with owed := none, history := S.history ++ [.respond i r] }
  | drop (S : Server σ ι α ρ) : Step S { S with owed := none }

/-- The invariant of a server: its history is valid and accounts for the object, a request in flight
was sent and not taken, and the answer still owed is the right one and was not given. -/
structure Server.Inv (M : Mealy σ α ρ) (s₀ : σ) (S : Server σ ι α ρ) : Prop where
  valid : Valid M s₀ S.history
  object : S.object = M.run s₀ ((taken S.history).map Prod.snd)
  nodup : (S.pending.map Prod.fst).Nodup
  pending : ∀ i a, (i, a) ∈ S.pending → .send i a ∈ S.history ∧ ∀ b, .take i b ∉ S.history
  owed : ∀ i r, S.owed = some (i, r) →
    Answer M s₀ (taken S.history) i r ∧ ∀ r', .respond i r' ∉ S.history

theorem Server.inv_init (M : Mealy σ α ρ) (s₀ : σ) :
    Server.Inv M s₀ (Server.init s₀ : Server σ ι α ρ) :=
  ⟨valid_nil, rfl, List.nodup_nil, nofun, nofun⟩

/-- A request that was not sent is not in flight. -/
theorem Server.Inv.not_mem_pending {S : Server σ ι α ρ} (h : S.Inv M s₀)
    (hnew : ∀ b, .send i b ∉ S.history) : i ∉ S.pending.map Prod.fst := by
  intro hi
  obtain ⟨⟨i, a⟩, hmem, rfl⟩ := List.mem_map.1 hi
  exact hnew a (h.pending i a hmem).1

/-- A request that is answered was taken. -/
theorem Valid.exists_take_mem (hv : Valid M s₀ h) (hr : .respond i r ∈ h) :
    ∃ a, .take i a ∈ h := by
  simpa using (hv.answer hr).mem

/-- Every step keeps the invariant. -/
theorem Server.Inv.step {S S' : Server σ ι α ρ} (h : S.Inv M s₀) (hstep : Server.Step M S S') :
    S'.Inv M s₀ := by
  cases hstep with
  | send i a hnew =>
      refine ⟨valid_snoc.2 ⟨h.valid, hnew⟩, by simpa using h.object, ?_, fun j b hj => ?_, ?_⟩
      · rw [List.map_append, List.map_singleton, ← List.concat_eq_append]
        exact (List.nodup_concat _ _).2 ⟨h.not_mem_pending hnew, h.nodup⟩
      · rcases List.mem_append.1 hj with hj | hj
        · obtain ⟨hsent, htake⟩ := h.pending j b hj
          exact ⟨List.mem_append_left _ hsent, by simpa using htake⟩
        · -- the new request cannot have been taken before it was sent
          obtain ⟨rfl, rfl⟩ := Prod.mk.inj (List.mem_singleton.1 hj)
          refine ⟨by simp, fun c hc => ?_⟩
          exact hnew c (h.valid.send_mem (by simpa using hc))
      · simpa using h.owed
  | lose before p after hp =>
      have hsub : (before ++ after).Sublist S.pending := by
        rw [hp]
        exact (List.sublist_cons_self p after).append_left before
      exact ⟨h.valid, h.object, h.nodup.sublist (hsub.map Prod.fst),
        fun j b hj => h.pending j b (hsub.subset hj), h.owed⟩
  | take before i a after hp howed =>
      have hi := h.pending i a (by simp [hp])
      have hnodup := h.nodup
      simp only [hp, List.map_append, List.map_cons] at hnodup
      refine ⟨valid_snoc.2 ⟨h.valid, hi⟩, by simp [h.object], ?_, fun j b hj => ?_,
        fun j r hr => ?_⟩
      · simpa using (List.nodup_middle.1 hnodup).of_cons
      · obtain ⟨hsent, htake⟩ := h.pending j b (by
          rw [hp]
          exact List.mem_append.2 ((List.mem_append.1 hj).imp_right (List.mem_cons_of_mem _)))
        -- `i` was in flight once, so what is still in flight is another request
        have hne : j ≠ i := by
          rintro rfl
          exact (List.nodup_cons.1 (List.nodup_middle.1 hnodup)).1
            (by simpa using List.mem_map_of_mem (f := Prod.fst) hj)
        exact ⟨List.mem_append_left _ hsent, by simpa [hne] using htake⟩
      · obtain ⟨rfl, rfl⟩ := Prod.mk.inj (Option.some.inj hr)
        -- the request was executed last; an earlier answer would make it taken before
        refine ⟨⟨taken S.history, a, [], by simp, by rw [h.object]⟩, fun r' hr' => ?_⟩
        have hr' : .respond i r' ∈ S.history := by simpa using hr'
        obtain ⟨b, hb⟩ := h.valid.exists_take_mem hr'
        exact hi.2 b hb
  | respond i r howed =>
      refine ⟨valid_snoc.2 ⟨h.valid, h.owed i r howed⟩, by simpa using h.object, h.nodup,
        fun j b hj => ?_, nofun⟩
      obtain ⟨hsent, htake⟩ := h.pending j b hj
      exact ⟨List.mem_append_left _ hsent, by simpa using htake⟩
  | drop => exact ⟨h.valid, h.object, h.nodup, h.pending, nofun⟩

/-- Every history of a server of `M` is linearized by the order in which the requests are taken. -/
theorem linearized_of_reachable {S : Server σ ι α ρ}
    (h : Relation.ReflTransGen (Server.Step M) (Server.init s₀) S) :
    Linearized M s₀ S.history S.object := by
  have hinv : S.Inv M s₀ := by
    induction h with
    | refl => exact Server.inv_init M s₀
    | tail _ hstep ih => exact ih.step hstep
  exact hinv.valid.linearized hinv.object

/-! ### What an answer tells about the requests before it -/

/-- Every history of a server of `M` is valid. -/
theorem valid_of_reachable {S : Server σ ι α ρ}
    (h : Relation.ReflTransGen (Server.Step M) (Server.init s₀) S) : Valid M s₀ S.history := by
  have hinv : S.Inv M s₀ := by
    induction h with
    | refl => exact Server.inv_init M s₀
    | tail _ hstep ih => exact ih.step hstep
  exact hinv.valid

/-- An answer is the result of executing the request after those taken before it, all of which were
sent before the answer. -/
theorem Valid.exists_earlier {before after : List (Event ι α ρ)}
    (hv : Valid M s₀ (before ++ .respond i r :: after)) :
    ∃ earlier a later, taken before = earlier ++ (i, a) :: later ∧ .send i a ∈ before ∧
      (∀ j b, (j, b) ∈ earlier → .send j b ∈ before) ∧
      r = (M.step (M.run s₀ (earlier.map Prod.snd)) a).1 := by
  obtain ⟨earlier, a, later, htaken, hr⟩ := hv.enabled.1
  have hsent (j : ι) (b : α) (hmem : (j, b) ∈ taken before) : .send j b ∈ before :=
    hv.of_append.send_mem (mem_taken.1 hmem)
  exact ⟨earlier, a, later, htaken, hsent i a (by simp [htaken]),
    fun j b hmem => hsent j b (by simp [htaken, hmem]), hr⟩

/-! ### Requests without effect -/

/-- If a request leaves the object as it finds it, the answers to the other requests are those of
the execution without it. -/
theorem Answer.remove {before after : List (ι × α)}
    (h : Answer M s₀ (before ++ (j, b) :: after) i r)
    (heffect : (M.step (M.run s₀ (before.map Prod.snd)) b).2 = M.run s₀ (before.map Prod.snd))
    (hne : i ≠ j) : Answer M s₀ (before ++ after) i r := by
  obtain ⟨front, a, back, heq, hr⟩ := h
  rw [List.append_eq_append_iff] at heq
  rcases heq with ⟨mid, hfront, hmid⟩ | ⟨mid, rfl, hmid⟩
  · cases mid with
    | nil =>
        obtain ⟨hj, -⟩ := List.cons.inj hmid
        exact absurd (Prod.mk.inj hj).1.symm hne
    | cons p mid =>
        -- the request comes later, and starts from the same object
        obtain ⟨rfl, rfl⟩ := List.cons.inj hmid
        refine ⟨before ++ mid, a, back, (List.append_assoc _ _ _).symm, ?_⟩
        rw [hr, hfront]
        simp [heffect]
  · cases mid with
    | nil =>
        obtain ⟨hj, -⟩ := List.cons.inj hmid
        exact absurd (Prod.mk.inj hj).1 hne
    | cons p mid =>
        -- the request comes earlier
        obtain ⟨rfl, rfl⟩ := List.cons.inj hmid
        exact ⟨front, a, mid ++ after, by simp, hr⟩

end Linearizability
