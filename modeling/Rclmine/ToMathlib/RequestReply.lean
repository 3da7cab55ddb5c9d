import Mathlib.Algebra.Order.Group.Multiset
import Mathlib.Data.List.Nodup
import Mathlib.Logic.Relation
import Mathlib.Tactic.Abel

/-!
# Requests and replies over a lossy network

Clients send requests with new identities; a server takes requests in any order, computes a reply to
each and sends it back; requests and replies may be lost. What a reply has to do with its request is
a relation `f`.

The module introduces:

* `RequestReply` and `RequestReply.Step f`: what is in flight and what happened so far, and the
  steps;
* `Accounted f`: each request that was sent is in flight, lost or computed, and each one that was
  computed is being replied to, has a reply in flight or lost, or was answered; nothing is in two
  places, and every reply is right (`accounted_of_reachable`);
* `Accounted.nodup_delivered`, `Accounted.correct` and `Accounted.all_delivered`: so no request is
  answered twice or wrongly, and if nothing was lost and nothing is under way all are answered.
-/

/-- The requests and replies of an exchange: those in flight, the reply the server has computed and
not yet sent, and the past of the exchange. -/
structure RequestReply (ι α ρ : Type*) where
  sent : List (ι × α)
  requests : List (ι × α)
  computed : List (ι × α)
  owed : Option (ι × ρ)
  replies : List (ι × ρ)
  delivered : List (ι × ρ)
  lostRequests : List ι
  lostReplies : List ι

namespace RequestReply

variable {ι α ρ : Type*} {f : α → ρ → Prop} {X X' : RequestReply ι α ρ}

/-- The exchange before the first request. -/
def init : RequestReply ι α ρ :=
  ⟨[], [], [], none, [], [], [], []⟩

/-- The steps of an exchange with a server of `f`. -/
inductive Step (f : α → ρ → Prop) : RequestReply ι α ρ → RequestReply ι α ρ → Prop
  /-- Something else happens. -/
  | other (X : RequestReply ι α ρ) : Step f X X
  | send (X : RequestReply ι α ρ) (i : ι) (a : α) :
      i ∉ X.sent.map Prod.fst →
        Step f X { X with sent := X.sent ++ [(i, a)], requests := X.requests ++ [(i, a)] }
  | loseRequest (X : RequestReply ι α ρ) (before : List (ι × α)) (p : ι × α)
      (after : List (ι × α)) :
      X.requests = before ++ p :: after →
        Step f X { X with
          requests := before ++ after
          lostRequests := X.lostRequests ++ [p.1] }
  /-- The server takes a request and computes the reply. -/
  | compute (X : RequestReply ι α ρ) (before : List (ι × α)) (i : ι) (a : α)
      (after : List (ι × α)) (r : ρ) :
      X.requests = before ++ (i, a) :: after → X.owed = none → f a r →
        Step f X { X with
          requests := before ++ after
          computed := X.computed ++ [(i, a)]
          owed := some (i, r) }
  | reply (X : RequestReply ι α ρ) (p : ι × ρ) :
      X.owed = some p → Step f X { X with owed := none, replies := X.replies ++ [p] }
  /-- The reply could not be sent. -/
  | drop (X : RequestReply ι α ρ) (p : ι × ρ) :
      X.owed = some p →
        Step f X { X with owed := none, lostReplies := X.lostReplies ++ [p.1] }
  | loseReply (X : RequestReply ι α ρ) (before : List (ι × ρ)) (p : ι × ρ)
      (after : List (ι × ρ)) :
      X.replies = before ++ p :: after →
        Step f X { X with
          replies := before ++ after
          lostReplies := X.lostReplies ++ [p.1] }
  | deliver (X : RequestReply ι α ρ) (before : List (ι × ρ)) (p : ι × ρ)
      (after : List (ι × ρ)) :
      X.replies = before ++ p :: after →
        Step f X { X with replies := before ++ after, delivered := X.delivered ++ [p] }

/-- A run of an exchange. -/
abbrev Reachable (f : α → ρ → Prop) : RequestReply ι α ρ → RequestReply ι α ρ → Prop :=
  Relation.ReflTransGen (Step f)

/-- The identities in a list of requests or replies, in no order. -/
def ids {β : Type*} (l : List (ι × β)) : Multiset ι :=
  l.map Prod.fst

section ids

variable {β : Type*} (l l' : List (ι × β)) (p : ι × β)

@[simp] theorem ids_nil : ids ([] : List (ι × β)) = 0 := rfl

@[simp] theorem ids_cons : ids (p :: l) = {p.1} + ids l := rfl

@[simp] theorem ids_append : ids (l ++ l') = ids l + ids l' := by
  simp [ids, ← Multiset.coe_add]

end ids

/-- The replies that were computed, wherever they are now. -/
def produced (X : RequestReply ι α ρ) : List (ι × ρ) :=
  X.owed.toList ++ X.replies ++ X.delivered

/-- What became of the requests and replies. -/
structure Accounted (f : α → ρ → Prop) (X : RequestReply ι α ρ) : Prop where
  /-- No identity is used twice. -/
  nodup_sent : (X.sent.map Prod.fst).Nodup
  /-- A request that was sent is in flight, computed or lost. -/
  requested : ids X.sent = ids X.requests + ids X.computed + X.lostRequests
  /-- The reply to a request that was computed is owed, in flight, delivered or lost. -/
  replied : ids X.computed = ids X.produced + X.lostReplies
  requests_sent : X.requests ⊆ X.sent
  computed_sent : X.computed ⊆ X.sent
  right : ∀ i r, (i, r) ∈ X.produced → ∃ a, (i, a) ∈ X.sent ∧ f a r

theorem accounted_init : Accounted f (init : RequestReply ι α ρ) where
  nodup_sent := List.nodup_nil
  requested := rfl
  replied := rfl
  requests_sent := List.nil_subset _
  computed_sent := List.nil_subset _
  right := by simp [init, produced]

/-- A step that leaves the requests alone and moves or loses replies keeps the accounts. -/
theorem Accounted.of_replies (h : Accounted f X) (hsent : X'.sent = X.sent)
    (hrequests : X'.requests = X.requests) (hcomputed : X'.computed = X.computed)
    (hlost : X'.lostRequests = X.lostRequests) (hsub : X'.produced ⊆ X.produced)
    (hids : ids X'.produced + X'.lostReplies = ids X.produced + X.lostReplies) :
    Accounted f X' where
  nodup_sent := hsent ▸ h.nodup_sent
  requested := by rw [hsent, hrequests, hcomputed, hlost, h.requested]
  replied := by rw [hcomputed, hids, h.replied]
  requests_sent := by
    rw [hsent, hrequests]
    exact h.requests_sent
  computed_sent := by
    rw [hsent, hcomputed]
    exact h.computed_sent
  right i r hr := by
    rw [hsent]
    exact h.right i r (hsub hr)

/-- Every step keeps the accounts. -/
theorem Accounted.step (h : Accounted f X) (hstep : Step f X X') : Accounted f X' := by
  cases hstep with
  | other => exact h
  | send i a hnew =>
      refine ⟨?_, ?_, h.replied, ?_, ?_, fun j r hr => ?_⟩
      · -- the identity is new
        rw [List.map_append, List.map_singleton, ← List.concat_eq_append]
        exact (List.nodup_concat _ _).2 ⟨hnew, h.nodup_sent⟩
      · simp only [ids_append, ids_cons, ids_nil, h.requested]
        abel
      · exact List.append_subset.2 ⟨List.subset_append_of_subset_left _ h.requests_sent,
          List.subset_append_right _ _⟩
      · exact List.subset_append_of_subset_left _ h.computed_sent
      · obtain ⟨b, hb, hf⟩ := h.right j r hr
        exact ⟨b, List.mem_append_left _ hb, hf⟩
  | loseRequest before p after hrequests =>
      have hsub : before ++ after ⊆ X.requests := by
        rw [hrequests]
        exact ((List.Sublist.refl before).append (List.sublist_cons_self p after)).subset
      refine ⟨h.nodup_sent, ?_, h.replied, List.Subset.trans hsub h.requests_sent,
        h.computed_sent, h.right⟩
      -- the identity moves from the requests in flight to the lost ones
      simp only [h.requested, hrequests, ids_append, ids_cons, ← Multiset.coe_add,
        Multiset.coe_singleton]
      abel
  | compute before i a after r hrequests howed hf =>
      have hsub : before ++ after ⊆ X.requests := by
        rw [hrequests]
        exact ((List.Sublist.refl before).append (List.sublist_cons_self _ after)).subset
      have hmem : (i, a) ∈ X.sent := h.requests_sent (by simp [hrequests])
      refine ⟨h.nodup_sent, ?_, ?_, List.Subset.trans hsub h.requests_sent,
        List.append_subset.2 ⟨h.computed_sent, by simpa using hmem⟩, fun j r' hr => ?_⟩
      · -- it moves from the requests in flight to the computed ones
        simp only [h.requested, hrequests, ids_append, ids_cons, ids_nil]
        abel
      · -- the new reply is the one that is owed
        simp only [ids_append, h.replied, produced, howed, Option.toList_none,
          Option.toList_some, ids_nil, ids_cons]
        abel
      · have hcases : (j, r') = (i, r) ∨ (j, r') ∈ X.produced := by
          simpa [produced, howed, or_assoc] using hr
        rcases hcases with heq | hold
        · obtain ⟨rfl, rfl⟩ := Prod.mk.inj heq
          exact ⟨a, hmem, hf⟩
        · exact h.right j r' hold
  | reply p howed =>
      refine h.of_replies rfl rfl rfl rfl (fun x hx => ?_) ?_
      · simp only [produced, howed, Option.toList_none, Option.toList_some, List.mem_append,
          List.mem_singleton, List.not_mem_nil] at hx ⊢
        tauto
      · simp only [produced, howed, Option.toList_none, Option.toList_some, ids_append, ids_nil,
          ids_cons]
        abel
  | drop p howed =>
      refine h.of_replies rfl rfl rfl rfl (fun x hx => ?_) ?_
      · simp only [produced, howed, Option.toList_none, Option.toList_some, List.mem_append,
          List.mem_singleton, List.not_mem_nil] at hx ⊢
        tauto
      · simp only [produced, howed, Option.toList_none, Option.toList_some, ids_append, ids_nil,
          ids_cons, ← Multiset.coe_add, Multiset.coe_singleton]
        abel
  | loseReply before p after hreplies =>
      refine h.of_replies rfl rfl rfl rfl (fun x hx => ?_) ?_
      · simp only [produced, hreplies, List.mem_append, List.mem_cons] at hx ⊢
        tauto
      · simp only [produced, hreplies, ids_append, ids_cons, ← Multiset.coe_add,
          Multiset.coe_singleton]
        abel
  | deliver before p after hreplies =>
      refine h.of_replies rfl rfl rfl rfl (fun x hx => ?_) ?_
      · simp only [produced, hreplies, List.mem_append, List.mem_cons, List.not_mem_nil] at hx ⊢
        tauto
      · simp only [produced, hreplies, ids_append, ids_cons, ids_nil]
        abel

/-- The accounts of every run are in order. -/
theorem accounted_of_reachable (h : Reachable f init X) : Accounted f X := by
  induction h with
  | refl => exact accounted_init
  | tail _ hlast ih => exact ih.step hlast

/-- No request is computed twice. -/
theorem Accounted.nodup_computed (h : Accounted f X) : (X.computed.map Prod.fst).Nodup := by
  have hnodup : (ids X.sent).Nodup := Multiset.coe_nodup.2 h.nodup_sent
  -- the computed requests are a part of those sent, counted with their multiplicities
  rw [h.requested, Multiset.nodup_add, Multiset.nodup_add] at hnodup
  exact Multiset.coe_nodup.1 hnodup.1.2.1

/-- No request is answered twice. -/
theorem Accounted.nodup_delivered (h : Accounted f X) : (X.delivered.map Prod.fst).Nodup := by
  have hnodup : (ids X.computed).Nodup := Multiset.coe_nodup.2 h.nodup_computed
  rw [h.replied, produced, ids_append, Multiset.nodup_add, Multiset.nodup_add] at hnodup
  exact Multiset.coe_nodup.1 hnodup.1.2.1

/-- An answer is right for the request with its identity. -/
theorem Accounted.correct (h : Accounted f X) {i : ι} {r : ρ} (hr : (i, r) ∈ X.delivered) :
    ∃ a, (i, a) ∈ X.sent ∧ f a r :=
  h.right i r (List.mem_append_right _ hr)

/-- If nothing was lost and nothing is under way, every request was answered once. -/
theorem Accounted.all_delivered (h : Accounted f X) (hrequests : X.requests = [])
    (howed : X.owed = none) (hreplies : X.replies = []) (hlost : X.lostRequests = [])
    (hlost' : X.lostReplies = []) : (X.delivered.map Prod.fst).Perm (X.sent.map Prod.fst) := by
  have hids : ids X.delivered = ids X.sent := by
    simp [h.requested, h.replied, produced, hrequests, howed, hreplies, hlost, hlost']
  exact Multiset.coe_eq_coe.1 hids

end RequestReply
