import Ptpd.Lib.EachStep

/-! # Machines that answer

    A machine is given inputs one after the other and answers each of them. One
    machine simulates another under a relation of their states if related states
    answer alike and stay related; where that takes a guard on the input, the
    answers to a whole run are alike exactly if the guard holds at every step.
-/

namespace Transducer

open Steps

variable {σ : Type u} {τ : Type v} {ι : Type w} {ο : Type x}

/-- The answers to the inputs, and the last state. -/
def run (step : σ → ι → ο × σ) : σ → List ι → List ο × σ
  | s, [] => ([], s)
  | s, i :: is =>
    let rest := run step (step s i).2 is
    ((step s i).1 :: rest.1, rest.2)

theorem run_cons (step : σ → ι → ο × σ) (s : σ) (i : ι) (is : List ι) :
    run step s (i :: is) =
      ((step s i).1 :: (run step (step s i).2 is).1, (run step (step s i).2 is).2) := rfl

variable {f : σ → ι → ο × σ} {g : τ → ι → ο × τ} {R : σ → τ → Prop} {Q P : τ → ι → Prop}
  {s : σ} {t : τ} {is : List ι}

/-- **Simulation rule.** -/
theorem run_simulates
    (hstep : ∀ s t i, R s t → (f s i).1 = (g t i).1 ∧ R (f s i).2 (g t i).2)
    (h : R s t) (is : List ι) :
    (run f s is).1 = (run g t is).1 ∧ R (run f s is).2 (run g t is).2 := by
  induction is generalizing s t with
  | nil => exact ⟨rfl, h⟩
  | cons i is ih =>
    obtain ⟨hanswer, hnext⟩ := hstep s t i h
    obtain ⟨hanswers, hlast⟩ := ih hnext
    refine ⟨?_, hlast⟩
    rw [run_cons, run_cons, hanswer, hanswers]

/-- **Guarded simulation rule**: `Q` is assumed at every step of the run; the guard `P` decides
    at each whether the answers are alike. -/
theorem answers_eq_iff
    (hgood : ∀ s t i, R s t → Q t i → P t i → (f s i).1 = (g t i).1 ∧ R (f s i).2 (g t i).2)
    (hbad : ∀ s t i, R s t → Q t i → ¬ P t i → (f s i).1 ≠ (g t i).1)
    (h : R s t) (hQ : EachStep (fun t i => (g t i).2) Q t is) :
    (run f s is).1 = (run g t is).1 ↔ EachStep (fun t i => (g t i).2) P t is := by
  induction is generalizing s t with
  | nil => exact ⟨fun _ => trivial, fun _ => rfl⟩
  | cons i is ih =>
    obtain ⟨hi, hrest⟩ := hQ
    by_cases hP : P t i
    · obtain ⟨hanswer, hnext⟩ := hgood s t i h hi hP
      have hiff := ih hnext hrest
      constructor
      · intro heq
        exact ⟨hP, hiff.mp (List.cons.inj heq).2⟩
      · rintro ⟨-, hall⟩
        rw [run_cons, run_cons, hanswer, hiff.mpr hall]
    · constructor
      · intro heq
        exact absurd (List.cons.inj heq).1 (hbad s t i h hi hP)
      · rintro ⟨hP', -⟩
        exact absurd hP' hP

end Transducer
