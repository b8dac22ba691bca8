import Mathlib.Data.List.Chain
import Mathlib.Data.UInt

/-! # Triggers on a counter that wraps around

    A trigger is looked at now and then, and fires when its period has passed
    since it fired last. It is kept on a counter of 32 bits. As long as it is looked
    at often enough the counter does as well as one without bound, and it fires
    neither early nor later than the next look allows.
-/

namespace Trigger

/-- The counter at this time. -/
def reading (t : Nat) : UInt32 := UInt32.ofNat t

theorem reading_sub_toNat {t last : Nat} (hle : last ≤ t) (hlt : t - last < 2 ^ 32) :
    (reading t - reading last).toNat = t - last := by
  unfold reading
  rw [UInt32.toNat_sub, UInt32.toNat_ofNat', UInt32.toNat_ofNat']
  omega

/-! ## Firing -/

section Fires

variable (period : Nat)

/-- When a trigger that fired last at `last` fires, looked at at these times. -/
def fires : Nat → List Nat → List Nat
  | _, [] => []
  | last, t :: ts => if period ≤ t - last then t :: fires t ts else fires last ts

/-- The same on the counter. -/
def firesOn : UInt32 → List Nat → List Nat
  | _, [] => []
  | count, t :: ts =>
    if period ≤ (reading t - count).toNat then t :: firesOn (reading t) ts else firesOn count ts

end Fires

theorem firesOn_cons (period : Nat) (count : UInt32) (t : Nat) (ts : List Nat) :
    firesOn period count (t :: ts) =
      if period ≤ (reading t - count).toNat then t :: firesOn period (reading t) ts
      else firesOn period count ts := rfl

/-- The looks come in order, none later than `gap` after the one before. -/
def Looks (gap : Nat) (t : Nat) (ts : List Nat) : Prop :=
  List.IsChain (fun a b => a ≤ b ∧ b ≤ a + gap) (t :: ts)

variable {period gap last t : Nat} {ts : List Nat}

theorem Looks.cons {t' : Nat} (h : Looks gap t (t' :: ts)) :
    (t ≤ t' ∧ t' ≤ t + gap) ∧ Looks gap t' ts := List.isChain_cons_cons.mp h

theorem Looks.le_last (h : Looks gap t ts) : t ≤ ts.getLastD t := by
  induction ts generalizing t with
  | nil => exact le_refl t
  | cons t' ts ih =>
    obtain ⟨⟨hle, -⟩, hrest⟩ := h.cons
    rw [List.getLastD_cons]
    exact hle.trans (ih hrest)

/-- **The counter is as good as one without bound.** -/
theorem firesOn_eq (hperiod : 0 < period) (hgap : period + gap ≤ 2 ^ 32) (hlast : last ≤ t)
    (hdue : t - last < period) (hlooks : Looks gap t ts) :
    firesOn period (reading last) ts = fires period last ts := by
  induction ts generalizing t last with
  | nil => rfl
  | cons t' ts ih =>
    obtain ⟨⟨hle, hnext⟩, hrest⟩ := hlooks.cons
    have hsub : (reading t' - reading last).toNat = t' - last :=
      reading_sub_toNat (hlast.trans hle) (by omega)
    unfold firesOn fires
    rw [hsub]
    by_cases hfire : period ≤ t' - last
    · rw [if_pos hfire, if_pos hfire, ih (le_refl t') (by omega) hrest]
    · rw [if_neg hfire, if_neg hfire, ih (hlast.trans hle) (by omega) hrest]

/-- **On time**: a whole period lies between firings, and no more than a gap between looks beyond
    it. -/
theorem fires_spaced (hperiod : 0 < period) (hlast : last ≤ t) (hdue : t - last < period)
    (hlooks : Looks gap t ts) :
    List.IsChain (fun a b => a + period ≤ b ∧ b < a + period + gap) (last :: fires period last ts) := by
  induction ts generalizing t last with
  | nil => exact List.isChain_singleton last
  | cons t' ts ih =>
    obtain ⟨⟨hle, hnext⟩, hrest⟩ := hlooks.cons
    unfold fires
    by_cases hfire : period ≤ t' - last
    · rw [if_pos hfire]
      apply List.isChain_cons_cons.mpr
      constructor
      · omega
      · exact ih (le_refl t') (by omega) hrest
    · rw [if_neg hfire]
      exact ih (hlast.trans hle) (by omega) hrest

/-- **Nothing is missed**: at the last look it has fired less than a period ago. -/
theorem fires_last (hperiod : 0 < period) (hlast : last ≤ t) (hdue : t - last < period)
    (hlooks : Looks gap t ts) :
    ts.getLastD t - (fires period last ts).getLastD last < period := by
  induction ts generalizing t last with
  | nil => exact hdue
  | cons t' ts ih =>
    obtain ⟨⟨hle, -⟩, hrest⟩ := hlooks.cons
    rw [List.getLastD_cons]
    unfold fires
    by_cases hfire : period ≤ t' - last
    · rw [if_pos hfire, List.getLastD_cons]
      exact ih (le_refl t') (by omega) hrest
    · rw [if_neg hfire]
      exact ih (hlast.trans hle) (by omega) hrest

end Trigger
