import Mathlib.Data.Set.Basic
import Mathlib.Logic.Function.Basic
import Mathlib.Logic.Relation

/-! # Parties on a wire

    Parties that take their steps in any order. What one of them says stays on
    the wire: every party may hear it, at any later time, any number of times, or
    never. The invariant rule is that of one party which hears what is on the
    wire.
-/

namespace Wire

/-- What a party does with an input, what it hears by it, and what it has said. -/
structure Party (σ α μ : Type*) where
  step : α → σ → σ
  allowed : α → Prop
  hears : α → Set μ
  said : σ → Set μ

variable {ι σ α μ : Type*} {P : Party σ α μ} {s s' : ι → σ}

/-- What is said is not taken back. -/
def Party.Remembers (P : Party σ α μ) : Prop :=
  ∀ a x, P.allowed a → P.said x ⊆ P.said (P.step a x)

/-- Whatever has been said by anyone. -/
def wire (P : Party σ α μ) (s : ι → σ) : Set μ := {m | ∃ i, m ∈ P.said (s i)}

/-- One party is given an input. It hears only what is on the wire. -/
inductive Step [DecidableEq ι] (P : Party σ α μ) (s : ι → σ) : (ι → σ) → Prop where
  | act (i : ι) (a : α) (hallowed : P.allowed a) (hheard : P.hears a ⊆ wire P s) :
      Step P s (Function.update s i (P.step a (s i)))

abbrev Run [DecidableEq ι] (P : Party σ α μ) : (ι → σ) → (ι → σ) → Prop :=
  Relation.ReflTransGen (Step P)

variable [DecidableEq ι]

theorem Step.wire_subset (hremembers : P.Remembers) (h : Step P s s') :
    wire P s ⊆ wire P s' := by
  obtain ⟨i, a, hallowed, -⟩ := h
  rintro m ⟨j, hj⟩
  refine ⟨j, ?_⟩
  by_cases hij : j = i
  · subst hij
    rw [Function.update_self]
    exact hremembers a (s j) hallowed hj
  · rw [Function.update_of_ne hij]
    exact hj

/-- **Invariant rule.** `I K x`: the party in state `x` is as it should be if it heard nothing
    that is not in `K`. -/
theorem Run.each {I : Set μ → σ → Prop} (hremembers : P.Remembers)
    (hmono : ∀ K K' x, K ⊆ K' → I K x → I K' x)
    (hstep : ∀ K a x, P.allowed a → P.hears a ⊆ K → I K x → I K (P.step a x))
    (hrun : Run P s s') (hs : ∀ i, I (wire P s) (s i)) : ∀ i, I (wire P s') (s' i) := by
  induction hrun with
  | refl => exact hs
  | tail _ hlast ih =>
    have hmore := hlast.wire_subset hremembers
    obtain ⟨i, a, hallowed, hheard⟩ := hlast
    intro j
    apply hmono _ _ _ hmore
    by_cases hij : j = i
    · subst hij
      rw [Function.update_self]
      exact hstep _ a _ hallowed hheard (ih j)
    · rw [Function.update_of_ne hij]
      exact ih j

end Wire
