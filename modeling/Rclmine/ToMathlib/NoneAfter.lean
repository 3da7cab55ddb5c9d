import Mathlib.Data.List.Pairwise

/-!
# Nothing of a kind after an element

Ordering facts about traces: in a list, no element of some kind comes after a given element.

The module introduces `List.NoneAfter x q l` and the rules for appending to such a list.
-/

namespace List

variable {α : Type*} {x : α} {q : α → Prop} {l l' : List α}

/-- In `l` no element satisfying `q` comes after an occurrence of `x`. -/
def NoneAfter (x : α) (q : α → Prop) (l : List α) : Prop :=
  l.Pairwise fun a b => a = x → ¬ q b

/-- In two lists one after the other, nothing of the kind comes after `x` in either, and nothing of
the kind is in the second if `x` is in the first. -/
theorem noneAfter_append :
    NoneAfter x q (l ++ l') ↔ NoneAfter x q l ∧ NoneAfter x q l' ∧ (x ∈ l → ∀ b ∈ l', ¬ q b) := by
  rw [NoneAfter, pairwise_append]
  refine and_congr_right fun _ => and_congr_right fun _ => ?_
  constructor
  · exact fun h hx b hb => h x hx b hb rfl
  · rintro h a ha b hb rfl
    exact h ha b hb

theorem noneAfter_singleton (a : α) : NoneAfter x q [a] :=
  pairwise_singleton _ a

/-- There is nothing after an element that does not occur. -/
theorem noneAfter_of_not_mem (h : x ∉ l) : NoneAfter x q l := by
  have htrivial : l.Pairwise fun _ _ => True := pairwise_of_forall fun _ _ => trivial
  exact htrivial.imp_of_mem fun ha _ _ heq => absurd (heq ▸ ha) h

/-- What is appended last comes before nothing. -/
theorem noneAfter_snoc_of_not_mem (h : x ∉ l) (a : α) : NoneAfter x q (l ++ [a]) :=
  noneAfter_append.2 ⟨noneAfter_of_not_mem h, noneAfter_singleton a, fun hx => absurd hx h⟩

end List
