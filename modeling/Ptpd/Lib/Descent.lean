import Mathlib.Data.Prod.Lex
import Mathlib.Logic.Function.Iterate
import Mathlib.Order.WellFounded

/-! # Descent

    A loop applies one function over and over. It reaches its goal if, from wherever
    it is, a measure falls after some iterations, unless it gets stuck.
-/

namespace Descent

variable {α β : Type*} {f : α → α} {Inv Stuck Goal : α → Prop}

theorem forall_iterate (hinv : ∀ x, Inv x → Inv (f x)) {x : α} (hx : Inv x) (k : Nat) :
    Inv (f^[k] x) := by
  induction k generalizing x with
  | zero => exact hx
  | succ k ih => exact ih (hinv x hx)

/-- What is stuck stays so, what has reached the goal too, and the two exclude each other:
    the goal is never reached from where the loop gets stuck. -/
theorem not_goal_of_stuck (hstuck : ∀ x, Inv x → Stuck x → Stuck (f x))
    (hgoal : ∀ x, Inv x → Goal x → Goal (f x)) (hinv : ∀ x, Inv x → Inv (f x))
    (hexcl : ∀ x, Stuck x → ¬ Goal x) {x : α} (hx : Inv x) {j k : Nat} (hk : Stuck (f^[k] x)) :
    ¬ Goal (f^[j] x) := by
  intro hj
  have hlater : Stuck (f^[j] (f^[k] x)) := by
    have hboth : ∀ y, Inv y ∧ Stuck y → Inv (f y) ∧ Stuck (f y) :=
      fun y hy => ⟨hinv y hy.1, hstuck y hy.1 hy.2⟩
    exact (forall_iterate hboth ⟨forall_iterate hinv hx k, hk⟩ j).2
  have hkept : Goal (f^[k] (f^[j] x)) := by
    have hboth : ∀ y, Inv y ∧ Goal y → Inv (f y) ∧ Goal (f y) :=
      fun y hy => ⟨hinv y hy.1, hgoal y hy.1 hy.2⟩
    exact (forall_iterate hboth ⟨forall_iterate hinv hx j, hj⟩ k).2
  rw [← Function.iterate_add_apply, Nat.add_comm, Function.iterate_add_apply] at hkept
  exact hexcl _ hlater hkept

variable [Preorder β] [WellFoundedLT β]

theorem exists_goal (measure : α → β) (hinv : ∀ x, Inv x → Inv (f x))
    (hfall : ∀ x, Inv x → (∀ k, ¬ Stuck (f^[k] x)) → ¬ Goal x →
      ∃ k, Goal (f^[k] x) ∨ measure (f^[k] x) < measure x)
    {x : α} (hx : Inv x) (hfree : ∀ k, ¬ Stuck (f^[k] x)) : ∃ k, Goal (f^[k] x) := by
  induction hm : measure x using WellFoundedLT.induction generalizing x with
  | ind m ih =>
    by_cases hgoal : Goal x
    · exact ⟨0, hgoal⟩
    obtain ⟨k, hk | hk⟩ := hfall x hx hfree hgoal
    · exact ⟨k, hk⟩
    · have hfree' : ∀ j, ¬ Stuck (f^[j] (f^[k] x)) := by
        intro j
        rw [← Function.iterate_add_apply]
        exact hfree (j + k)
      obtain ⟨j, hj⟩ := ih _ (hm ▸ hk) (forall_iterate hinv hx k) hfree' rfl
      rw [← Function.iterate_add_apply] at hj
      exact ⟨j + k, hj⟩

end Descent
