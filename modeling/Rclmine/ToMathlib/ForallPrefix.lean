import Rclmine.ToMathlib.ListSplit

/-!
# Conditions on what comes before

Safety properties of traces say of every event that the events before it allow it. The module
introduces `List.ForallPrefix P l`, which says that `P` holds of every element of `l` and the
elements before it, and the rules for extending such a list.

It also introduces `List.ForallRound m P l`, for a list that the element `m` divides into rounds:
`P` holds of what comes after an occurrence of `m`, up to the next one.
-/

namespace List

variable {α : Type*} {P Q : List α → α → Prop} {l l' : List α}

/-- Every element of `l` is allowed by `P` after the elements before it. -/
def ForallPrefix (P : List α → α → Prop) (l : List α) : Prop :=
  ∀ before a after, l = before ++ a :: after → P before a

@[simp] theorem forallPrefix_nil : ForallPrefix P [] := by
  intro before a after h
  simp at h

/-- The first element has nothing before it. -/
theorem forallPrefix_cons {a : α} :
    ForallPrefix P (a :: l) ↔ P [] a ∧ ForallPrefix (fun before => P (a :: before)) l := by
  constructor
  · refine fun h => ⟨h [] a l rfl, fun before b after heq => ?_⟩
    exact h (a :: before) b after (by rw [heq, cons_append])
  · rintro ⟨ha, hl⟩ before b after heq
    cases before with
    | nil =>
        obtain ⟨rfl, -⟩ := cons.inj heq
        exact ha
    | cons c before =>
        obtain ⟨rfl, htail⟩ := cons.inj heq
        exact hl before b after htail

/-- The elements of the second of two lists also have those of the first before them. -/
theorem forallPrefix_append :
    ForallPrefix P (l ++ l') ↔
      ForallPrefix P l ∧ ForallPrefix (fun before => P (l ++ before)) l' := by
  induction l generalizing P with
  | nil => simp
  | cons a l ih => rw [cons_append, forallPrefix_cons, forallPrefix_cons, ih, and_assoc]; rfl

/-- One more element. -/
theorem forallPrefix_snoc {a : α} :
    ForallPrefix P (l ++ [a]) ↔ ForallPrefix P l ∧ P l a := by
  rw [forallPrefix_append, forallPrefix_cons, append_nil]
  simp

/-- A condition that an element decides without those before it. -/
theorem forallPrefix_of_forall (h : ∀ a ∈ l, ∀ before, P before a) : ForallPrefix P l := by
  rintro before a after rfl
  exact h a (by simp) before

/-- If the elements of `l` do not matter to the condition, it can be checked at the beginning. -/
theorem forallPrefix_iff_of_stable
    (h : ∀ before a, (∀ b ∈ before, b ∈ l) → (P before a ↔ P [] a)) :
    ForallPrefix P l ↔ ∀ a ∈ l, P [] a := by
  constructor
  · intro hl a ha
    obtain ⟨before, after, rfl⟩ := append_of_mem ha
    exact (h before a fun b hb => mem_append_left _ hb).1 (hl before a after rfl)
  · rintro hl before a after rfl
    exact (h before a fun b hb => mem_append_left _ hb).2 (hl a (by simp))

/-! ### Rounds -/

/-- `P` holds of everything that comes after an occurrence of `m` and before the next one. -/
def ForallRound (m : α) (P : List α → Prop) (l : List α) : Prop :=
  ∀ before round after, l = before ++ m :: (round ++ after) → m ∉ round → P round

@[simp] theorem forallRound_nil {m : α} {P : List α → Prop} : ForallRound m P [] := by
  intro before round after h
  simp at h

/-- A list that ends with `m` ends with the beginning of a round. -/
theorem eq_nil_of_snoc_eq {m : α} {before round : List α} (h : l ++ [m] = before ++ m :: round)
    (hround : m ∉ round) : round = [] := by
  rcases snoc_eq_append_cons.1 h with ⟨-, -, rfl⟩ | ⟨round, rfl, -⟩
  · rfl
  · exact absurd (by simp) hround

/-- One more element of a round belongs to the last one. -/
theorem exists_of_snoc_eq {m a : α} {before round : List α} (ha : a ≠ m)
    (h : l ++ [a] = before ++ m :: round) :
    ∃ round', round = round' ++ [a] ∧ l = before ++ m :: round' :=
  (snoc_eq_append_cons.1 h).resolve_left fun hnew => ha hnew.2.1

/-- One more element adds to the last round or starts one. -/
theorem ForallRound.snoc {m a : α} {P : List α → Prop} (h : ForallRound m P l) (hnil : P [])
    (hlast : a ≠ m → ∀ before round, l = before ++ m :: round → m ∉ round → P (round ++ [a])) :
    ForallRound m P (l ++ [a]) := by
  intro before round after heq hround
  rcases eq_nil_or_concat' after with rfl | ⟨after, b, rfl⟩
  · rw [append_nil] at heq
    by_cases ha : a = m
    · subst ha
      rwa [eq_nil_of_snoc_eq heq hround]
    · obtain ⟨round', rfl, hl⟩ := exists_of_snoc_eq ha heq
      exact hlast ha before round' hl fun hmem => hround (mem_append_left _ hmem)
  · -- the round ended before the new element
    rw [← append_assoc, ← cons_append, ← append_assoc] at heq
    exact h before round after (append_inj' heq rfl).1 hround

end List
