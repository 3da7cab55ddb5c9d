import Mathlib.Data.List.Basic

/-!
# Lists split at an element

In the transition systems of this development an element is removed from the middle of a list, and a
history grows at its end. The module collects what it means for a list to be split at an element in
these situations:

* `List.exists_eraseIdx`: removing a position;
* `List.removed_from_append`: removing an element of two lists one after the other;
* `List.snoc_eq_append_cons`: splitting a list one element longer.
-/

namespace List

variable {α : Type*} {l before after : List α} {a b : α}

/-- Removing a position removes the element there from the middle of the list. -/
theorem exists_eraseIdx {i : ℕ} (h : l[i]? = some a) :
    ∃ before after, l = before ++ a :: after ∧ l.eraseIdx i = before ++ after := by
  obtain ⟨hi, rfl⟩ := getElem?_eq_some_iff.1 h
  refine ⟨l.take i, l.drop (i + 1), ?_, eraseIdx_eq_take_drop_succ l i⟩
  rw [getElem_cons_drop, take_append_drop]

/-- Removing an element of two lists one after the other removes it from one of them. -/
theorem removed_from_append {front back : List α} (h : front ++ back = before ++ a :: after) :
    (∃ l, front = before ++ a :: l ∧ before ++ after = (before ++ l) ++ back) ∨
      ∃ l, back = l ++ a :: after ∧ before ++ after = front ++ (l ++ after) := by
  rcases append_eq_append_iff.1 h with ⟨l, rfl, hback⟩ | ⟨l, rfl, hcons⟩
  · exact Or.inr ⟨l, hback, by simp⟩
  · cases l with
    | nil => exact Or.inr ⟨[], hcons.symm, by simp⟩
    | cons c l =>
        obtain ⟨rfl, rfl⟩ := cons.inj hcons
        exact Or.inl ⟨l, rfl, by simp⟩

/-- A list one element longer is split at the new element or at one before it. -/
theorem snoc_eq_append_cons :
    l ++ [a] = before ++ b :: after ↔
      (l = before ∧ a = b ∧ after = []) ∨
        ∃ after', after = after' ++ [a] ∧ l = before ++ b :: after' := by
  constructor
  · intro h
    rcases eq_nil_or_concat' after with rfl | ⟨after, c, rfl⟩
    · obtain ⟨hl, hb⟩ := append_inj' h rfl
      exact Or.inl ⟨hl, singleton_inj.1 hb, rfl⟩
    · rw [← cons_append, ← append_assoc] at h
      obtain ⟨hl, hc⟩ := append_inj' h rfl
      exact Or.inr ⟨after, by rw [singleton_inj.1 hc], hl⟩
  · rintro (⟨rfl, rfl, rfl⟩ | ⟨after', rfl, rfl⟩)
    · rfl
    · simp

end List
