/-! # Every step of a run

    A system that is given inputs one after the other. `EachStep` states a
    property of the state and the input at each step of a run. A step need only
    be shown to be good under an invariant, which may speak of the inputs still
    to come, and under an assumption about the same step.
-/

namespace Steps

variable {σ : Type u} {ι : Type v}

/-- The state after the inputs, the first one first. -/
def run (step : σ → ι → σ) : σ → List ι → σ
  | s, [] => s
  | s, i :: is => run step (step s i) is

/-- `P` of the state and the input at each step. -/
def EachStep (step : σ → ι → σ) (P : σ → ι → Prop) : σ → List ι → Prop
  | _, [] => True
  | s, i :: is => P s i ∧ EachStep step P (step s i) is

instance (step : σ → ι → σ) (P : σ → ι → Prop) [∀ s i, Decidable (P s i)] (s : σ) (is : List ι) :
    Decidable (EachStep step P s is) :=
  match is with
  | [] => inferInstanceAs (Decidable True)
  | i :: is =>
    have := instDecidableEachStep step P (step s i) is
    inferInstanceAs (Decidable (P s i ∧ EachStep step P (step s i) is))

variable {step : σ → ι → σ} {P Q : σ → ι → Prop}

/-- **Invariant rule**: under the invariant the assumption gives the property of
    this step, and the invariant for the next. -/
theorem EachStep.of_invariant (Inv : σ → List ι → Prop)
    (hstep : ∀ s i is, Inv s (i :: is) → P s i → Q s i ∧ Inv (step s i) is)
    {s : σ} {is : List ι} (hinv : Inv s is) (h : EachStep step P s is) : EachStep step Q s is := by
  induction is generalizing s with
  | nil => trivial
  | cons i is ih =>
    obtain ⟨hi, hrest⟩ := h
    obtain ⟨hq, hnext⟩ := hstep s i is hinv hi
    exact ⟨hq, ih hnext hrest⟩

end Steps
