import Mathlib.Data.List.Induction
import Rclmine.ToMathlib.ListSplit

/-!
# Runs of guarded steps

A transition system whose step function may refuse an action in a state. The module introduces
`exec step s as`, the run of the actions `as` from `s`, which exists if no action is refused, and
`exec_invariant`, the induction rule for an invariant between the actions taken and the state
reached.

It also introduces `Occurs step P s as`, which says that some action of the run is taken in a state
for which `P` holds of both, and the rule for a run one action longer (`occurs_snoc`).
-/

namespace GuardedRun

variable {σ α : Type*} {step : σ → α → Option σ} {s s' : σ} {as : List α} {a : α}

/-- The state after the actions `as`, taken from `s`, if none of them is refused. -/
def exec (step : σ → α → Option σ) (s : σ) (as : List α) : Option σ :=
  as.foldlM step s

@[simp] theorem exec_nil : exec step s [] = some s := rfl

/-- A run one action longer. -/
theorem exec_snoc :
    exec step s (as ++ [a]) = some s' ↔ ∃ t, exec step s as = some t ∧ step t a = some s' := by
  simp [exec, Option.bind_eq_some_iff]

/-- An invariant between the actions taken and the state reached, kept by every step, holds after
every run. -/
theorem exec_invariant (Inv : List α → σ → Prop) (hnil : Inv [] s)
    (hstep : ∀ as t a t', Inv as t → step t a = some t' → Inv (as ++ [a]) t')
    (h : exec step s as = some s') : Inv as s' := by
  induction as using List.reverseRecOn generalizing s' with
  | nil =>
      obtain rfl := Option.some.inj h
      exact hnil
  | append_singleton as a ih =>
      obtain ⟨t, ht, ha⟩ := exec_snoc.1 h
      exact hstep as t a s' (ih ht) ha

/-- Some action of the run `as` from `s` meets `P` in the state in which it is taken. -/
def Occurs (step : σ → α → Option σ) (P : σ → α → Prop) (s : σ) (as : List α) : Prop :=
  ∃ before a after t, as = before ++ a :: after ∧ exec step s before = some t ∧ P t a

variable {P : σ → α → Prop}

theorem not_occurs_nil : ¬ Occurs step P s [] := by
  rintro ⟨before, a, after, t, h, -⟩
  simp at h

/-- In a run one action longer it is the last action or one before it. -/
theorem occurs_snoc {t : σ} (h : exec step s as = some t) :
    Occurs step P s (as ++ [a]) ↔ Occurs step P s as ∨ P t a := by
  constructor
  · rintro ⟨before, b, after, t', heq, ht', hP⟩
    rcases List.snoc_eq_append_cons.1 heq with ⟨rfl, rfl, -⟩ | ⟨after, -, rfl⟩
    · obtain rfl := Option.some.inj (h.symm.trans ht')
      exact Or.inr hP
    · exact Or.inl ⟨before, b, after, t', rfl, ht', hP⟩
  · rintro (⟨before, b, after, t', rfl, ht', hP⟩ | hP)
    · exact ⟨before, b, after ++ [a], t', by simp, ht', hP⟩
    · exact ⟨as, a, [], t, rfl, h, hP⟩

end GuardedRun
