import Mathlib.Data.List.Perm.Basic
import Mathlib.Data.List.Sublists
import Mathlib.Logic.Relation
import Rclmine.ToMathlib.ListSplit

/-!
# Polled queues

A queue that a server works off in rounds. At the start of a round the server plans attempts on the
queue; each attempt takes an item or fails. Items arrive, and are lost, at any time. What else the
server does in a round is left open, so a server with many queues is described by one `PolledQueue`
for each of them.

The module introduces:

* `PolledQueue` and `PolledQueue.Step most polled ordered`: the queue with what has become of its
  items, and its steps, with at most `most` attempts in a round, and at least one if the queue is
  `polled` and not empty when the round starts. If the queue is `ordered`, an attempt takes the
  first item;
* `accounted_of_reachable`: items are taken at most once, in an ordered queue in the order of
  arrival, and none disappears;
* `taken_or_lost_of_rounds`: the first `n` items of a polled and ordered queue are taken or lost
  within `n` rounds, and one more for each failed attempt;
* `length_taken_le`: the queue is served at most `most` times in a round.
-/

/-- A queue, the attempts on it still to be made in the current round, and its past: the items that
arrived, were lost and were taken, the number of failed attempts and the number of rounds. -/
structure PolledQueue (α : Type*) where
  queue : List α
  due : ℕ
  arrived : List α
  lost : List α
  taken : List α
  misses : ℕ
  rounds : ℕ

namespace PolledQueue

variable {α : Type*} {most : ℕ} {polled ordered : Prop} {queue₀ : List α} {Q Q' : PolledQueue α}

/-- The queue before the first round, with the items waiting in it. -/
def init (queue : List α) : PolledQueue α :=
  ⟨queue, 0, [], [], [], 0, 0⟩

/-- The steps of a queue that gets at most `most` attempts in a round, is sure to get one when it is
`polled` and not empty, and is served from the front when it is `ordered`. -/
inductive Step (most : ℕ) (polled ordered : Prop) : PolledQueue α → PolledQueue α → Prop
  /-- Something else happens. -/
  | other (Q : PolledQueue α) : Step most polled ordered Q Q
  | arrive (Q : PolledQueue α) (a : α) :
      Step most polled ordered Q { Q with queue := Q.queue ++ [a], arrived := Q.arrived ++ [a] }
  | lose (Q : PolledQueue α) (before : List α) (a : α) (after : List α) :
      Q.queue = before ++ a :: after →
        Step most polled ordered Q { Q with queue := before ++ after, lost := Q.lost ++ [a] }
  /-- A round starts when the attempts of the last one are made. -/
  | round (Q : PolledQueue α) (due : ℕ) :
      Q.due = 0 → due ≤ most → (polled → Q.queue ≠ [] → 0 < due) →
        Step most polled ordered Q { Q with due, rounds := Q.rounds + 1 }
  | take (Q : PolledQueue α) (before : List α) (a : α) (after : List α) :
      0 < Q.due → Q.queue = before ++ a :: after → (ordered → before = []) →
        Step most polled ordered Q
          { Q with queue := before ++ after, due := Q.due - 1, taken := Q.taken ++ [a] }
  | miss (Q : PolledQueue α) :
      0 < Q.due → Step most polled ordered Q { Q with due := Q.due - 1, misses := Q.misses + 1 }

/-- A run of a queue. -/
abbrev Reachable (most : ℕ) (polled ordered : Prop) : PolledQueue α → PolledQueue α → Prop :=
  Relation.ReflTransGen (Step most polled ordered)

/-- An invariant of the steps holds after every run. -/
theorem Reachable.invariant {Inv : PolledQueue α → Prop} (h : Reachable most polled ordered Q Q')
    (hQ : Inv Q) (hstep : ∀ Q Q', Inv Q → Step most polled ordered Q Q' → Inv Q') : Inv Q' := by
  induction h with
  | refl => exact hQ
  | tail _ hlast ih => exact hstep _ _ ih hlast

/-! ### Every item is taken at most once and in order -/

/-- What became of the items that waited at first, `queue₀`, or arrived later: the items taken, lost
and waiting are all of them, and if the queue is ordered, those taken and then those waiting are in
the order of arrival. -/
structure Accounted (ordered : Prop) (queue₀ : List α) (Q : PolledQueue α) : Prop where
  complete : (Q.taken ++ Q.lost ++ Q.queue).Perm (queue₀ ++ Q.arrived)
  inOrder : ordered → (Q.taken ++ Q.queue).Sublist (queue₀ ++ Q.arrived)

theorem accounted_init (ordered : Prop) (queue : List α) :
    Accounted ordered queue (init queue) where
  complete := by simp [init]
  inOrder _ := by simp [init]

/-- An item moves from the queue to the end of another list. -/
theorem perm_move (done before : List α) (a : α) (after : List α) :
    (done ++ [a] ++ (before ++ after)).Perm (done ++ (before ++ a :: after)) := by
  rw [List.append_assoc, List.singleton_append]
  exact List.perm_middle.symm.append_left done

/-- Every step keeps the accounts. -/
theorem Accounted.step (h : Accounted ordered queue₀ Q) (hstep : Step most polled ordered Q Q') :
    Accounted ordered queue₀ Q' := by
  obtain ⟨hall, hin⟩ := h
  cases hstep with
  | other => exact ⟨hall, hin⟩
  | arrive a =>
      -- arrivals and the queue grow at the same end
      constructor
      · simpa using hall.append_right [a]
      · intro hordered
        simpa using (hin hordered).append (List.Sublist.refl [a])
  | lose before a after hq =>
      rw [hq] at hall hin
      constructor
      · have hmove := perm_move (Q.taken ++ Q.lost) before a after
        simpa using hmove.trans hall
      · intro hordered
        have hsub := (List.sublist_cons_self a after).append_left before
        exact (hsub.append_left Q.taken).trans (hin hordered)
  | round due _ _ _ => exact ⟨hall, hin⟩
  | take before a after _ hq hfirst =>
      rw [hq] at hall hin
      constructor
      · -- past what was lost, to the end of what was taken
        have hmove := perm_move (Q.taken ++ Q.lost) before a after
        have hswap : (Q.taken ++ [a] ++ Q.lost).Perm (Q.taken ++ Q.lost ++ [a]) := by
          rw [List.append_assoc, List.append_assoc]
          exact List.perm_append_comm.append_left Q.taken
        exact ((hswap.append_right _).trans hmove).trans hall
      · intro hordered
        obtain rfl := hfirst hordered
        simpa using hin hordered
  | miss _ => exact ⟨hall, hin⟩

/-- Items are taken at most once, in an ordered queue in the order of arrival, and none
disappears. -/
theorem accounted_of_reachable (h : Reachable most polled ordered (init queue₀) Q) :
    Accounted ordered queue₀ Q :=
  h.invariant (accounted_init ordered queue₀) fun _ _ hQ hstep => hQ.step hstep

/-! ### Every item is served within a bounded number of rounds -/

/-- The attempts on a queue are bounded by the rounds. -/
def Paced (most : ℕ) (Q : PolledQueue α) : Prop :=
  Q.taken.length + Q.misses + Q.due ≤ most * Q.rounds

theorem paced_init (most : ℕ) (queue : List α) : Paced most (init queue) := by
  simp [Paced, init]

/-- Every step keeps the pace. -/
theorem Paced.step (h : Paced most Q) (hstep : Step most polled ordered Q Q') : Paced most Q' := by
  rw [Paced] at h ⊢
  cases hstep with
  | other => exact h
  | arrive a => exact h
  | lose before a after _ => exact h
  | round due hidle hle _ =>
      -- nothing was due, so the new round pays for its attempts
      rw [Nat.mul_add_one]
      simp only at h ⊢
      omega
  | take before a after hpos _ _ =>
      -- an attempt that was due is now counted as a take
      simp only [List.length_append, List.length_singleton]
      omega
  | miss hpos =>
      simp only
      omega

/-- The queue is served at most `most` times in a round. -/
theorem length_taken_le (h : Reachable most polled ordered (init queue₀) Q) :
    Q.taken.length ≤ most * Q.rounds := by
  have hpaced := h.invariant (paced_init most queue₀) fun _ _ hQ hstep => hQ.step hstep
  rw [Paced] at hpaced
  omega

/-- The items that waited first moved up: `n` of them waited, with `rest` behind them, and of those
that are left there is one fewer for each round, up to failed attempts and the current round as long
as an attempt is due. -/
def Advances (n : ℕ) (rest : List α) (Q : PolledQueue α) : Prop :=
  ∃ ahead behind, Q.queue = ahead ++ behind ∧ behind.Sublist (rest ++ Q.arrived) ∧
    (ahead = [] ∨ ahead.length + Q.rounds ≤ n + Q.misses + min Q.due 1)

/-- Every step lets the items that waited first advance. -/
theorem Advances.step {n : ℕ} {rest : List α} (hpolled : polled) (hordered : ordered)
    (h : Advances n rest Q) (hstep : Step most polled ordered Q Q') : Advances n rest Q' := by
  obtain ⟨ahead, behind, hqueue, hbehind, hbound⟩ := h
  cases hstep with
  | other => exact ⟨ahead, behind, hqueue, hbehind, hbound⟩
  | arrive a =>
      refine ⟨ahead, behind ++ [a], by simp [hqueue], ?_, hbound⟩
      simpa using hbehind.append (List.Sublist.refl [a])
  | lose before a after hq =>
      rcases List.removed_from_append (hqueue.symm.trans hq) with ⟨l, rfl, heq⟩ | ⟨l, rfl, heq⟩
      · -- one of those ahead is lost, which leaves fewer of them
        refine ⟨before ++ l, behind, heq, hbehind, Or.inr ?_⟩
        have hle := hbound.resolve_left (by simp)
        simp only [List.length_append, List.length_cons] at hle ⊢
        omega
      · have hsub := (List.sublist_cons_self a after).append_left l
        exact ⟨ahead, l ++ after, heq, hsub.trans hbehind, hbound⟩
  | round due hidle hle hattempt =>
      refine ⟨ahead, behind, hqueue, hbehind, ?_⟩
      by_cases hnil : ahead = []
      · exact Or.inl hnil
      · -- the queue is not empty, so the new round has an attempt on it
        have hpos : 0 < due := hattempt hpolled (by simp [hqueue, hnil])
        have hle := hbound.resolve_left hnil
        exact Or.inr (by simp only; omega)
  | take before a after hpos hq hfirst =>
      obtain rfl := hfirst hordered
      rw [hqueue, List.nil_append] at hq
      cases ahead with
      | nil =>
          -- those that waited first are gone already
          obtain rfl : behind = a :: after := hq
          exact ⟨[], after, rfl, (List.sublist_cons_self a after).trans hbehind, Or.inl rfl⟩
      | cons b ahead =>
          obtain ⟨rfl, rfl⟩ := List.cons.inj hq
          have hle := hbound.resolve_left (List.cons_ne_nil b ahead)
          rw [List.length_cons] at hle
          exact ⟨ahead, behind, rfl, hbehind, Or.inr (by simp only; omega)⟩
  | miss hpos =>
      refine ⟨ahead, behind, hqueue, hbehind, hbound.imp_right fun hle => ?_⟩
      simp only
      omega

/-- The items that wait first advance in every run. -/
theorem advances_of_reachable (hpolled : polled) (hordered : ordered) {front rest : List α}
    (h : Reachable most polled ordered (init (front ++ rest)) Q) : Advances front.length rest Q :=
  h.invariant ⟨front, rest, rfl, by simp [init], Or.inr (by simp [init])⟩ fun _ _ hQ hstep =>
    hQ.step hpolled hordered hstep

/-- If only items that were behind `front` or arrived later are left, `front` was taken or lost. -/
theorem Accounted.front_subperm {front rest : List α} (h : Accounted ordered (front ++ rest) Q)
    (hqueue : Q.queue.Sublist (rest ++ Q.arrived)) : front.Subperm (Q.taken ++ Q.lost) := by
  have hleft : (Q.taken ++ Q.lost ++ Q.queue).Subperm (Q.taken ++ Q.lost ++ (rest ++ Q.arrived)) :=
    (hqueue.append_left _).subperm
  have hall := h.complete
  rw [List.append_assoc front] at hall
  exact (List.subperm_append_right _).1 (hall.symm.subperm.trans hleft)

/-- The first `n` items of the queue are taken or lost within `n` complete rounds, and one more for
each failed attempt. -/
theorem taken_or_lost_of_rounds (hpolled : polled) (hordered : ordered) {front rest : List α}
    (h : Reachable most polled ordered (init (front ++ rest)) Q) (hdue : Q.due = 0)
    (hrounds : front.length + Q.misses ≤ Q.rounds) : front.Subperm (Q.taken ++ Q.lost) := by
  obtain ⟨ahead, behind, hqueue, hbehind, hbound⟩ := advances_of_reachable hpolled hordered h
  have hnil : ahead = [] := by
    refine hbound.elim id fun hle => List.eq_nil_of_length_eq_zero ?_
    omega
  rw [hnil, List.nil_append] at hqueue
  exact (accounted_of_reachable h).front_subperm (hqueue ▸ hbehind)

/-- As long as some of the first `n` items wait, there are at most `n` rounds, and one more for each
failed attempt. -/
theorem rounds_le_of_waiting (hpolled : polled) (hordered : ordered) {front rest : List α}
    (h : Reachable most polled ordered (init (front ++ rest)) Q)
    (hwaits : ¬ front.Subperm (Q.taken ++ Q.lost)) : Q.rounds ≤ front.length + Q.misses := by
  obtain ⟨ahead, behind, hqueue, hbehind, hbound⟩ := advances_of_reachable hpolled hordered h
  have hne : ahead ≠ [] := by
    rintro rfl
    rw [List.nil_append] at hqueue
    exact hwaits ((accounted_of_reachable h).front_subperm (hqueue ▸ hbehind))
  have hpos := List.length_pos_of_ne_nil hne
  have hle := hbound.resolve_left hne
  omega

end PolledQueue
