import Mathlib.Tactic.Positivity
import Mathlib.Tactic.Ring
import Mathlib.Tactic.Linarith

/-! # A running mean kept as a scaled sum

    A smoother keeps `sum`, about `2 ^ s` times the mean, and gives out the
    floor `sum / 2 ^ s`. This module has the three facts that carry every
    statement about such a smoother: rescaling the sum to another order keeps
    the mean, one sample moves the mean no further than the sample, and the
    sum stays within one unit of the scaled mean.
-/

namespace ScaledMean

/-- `sum` at order `s` stands for the mean `y`. -/
def Stands (sum y : Int) (s : Nat) : Prop := y = sum / 2 ^ s

variable {sum y x : Int} {s t : Nat}

theorem Stands.of_zero : Stands y y 0 := by
  simp [Stands]

/-! ## Rescaling -/

/-- Scaling up appends zero digits, which the floor drops again. -/
theorem Stands.raise (h : Stands sum y s) (hst : s ≤ t) :
    Stands (sum * 2 ^ (t - s)) y t := by
  obtain ⟨k, rfl⟩ := Nat.exists_eq_add_of_le hst
  have hk : (0 : Int) < 2 ^ k := by positivity
  rw [Stands] at h ⊢
  rw [Nat.add_sub_cancel_left, pow_add, Int.mul_ediv_mul_of_pos_left _ _ hk]
  exact h

/-- Scaling down is a floor before the floor. -/
theorem Stands.lower (h : Stands sum y s) (hts : t ≤ s) :
    Stands (sum / 2 ^ (s - t)) y t := by
  obtain ⟨k, rfl⟩ := Nat.exists_eq_add_of_le hts
  have ht : (0 : Int) ≤ 2 ^ k := by positivity
  rw [Stands] at h ⊢
  rw [Nat.add_sub_cancel_left, Int.ediv_ediv_of_nonneg ht, ← pow_add, Nat.add_comm k t]
  exact h

theorem raise_eq (sum : Int) (hst : s ≤ t) : sum * 2 ^ (t - s) = sum * 2 ^ t / 2 ^ s := by
  obtain ⟨k, rfl⟩ := Nat.exists_eq_add_of_le hst
  have hs : (2 : Int) ^ s ≠ 0 := by positivity
  rw [Nat.add_sub_cancel_left, pow_add, Int.mul_left_comm, Int.mul_ediv_cancel_left _ hs]

theorem lower_eq (sum : Int) (hts : t ≤ s) : sum / 2 ^ (s - t) = sum * 2 ^ t / 2 ^ s := by
  obtain ⟨k, rfl⟩ := Nat.exists_eq_add_of_le hts
  have ht : (0 : Int) < 2 ^ t := by positivity
  rw [Nat.add_sub_cancel_left, Nat.add_comm, pow_add, Int.mul_ediv_mul_of_pos_left _ _ ht]

/-- At any order, the sum is the scaled mean and the digits below it. -/
theorem Stands.scaled (h : Stands sum y s) (t : Nat) :
    sum * 2 ^ t / 2 ^ s = y * 2 ^ t + sum % 2 ^ s * 2 ^ t / 2 ^ s := by
  have hs : (2 : Int) ^ s ≠ 0 := by positivity
  have hsplit : sum * 2 ^ t = sum % 2 ^ s * 2 ^ t + y * 2 ^ t * 2 ^ s := by
    calc sum * 2 ^ t = (sum % 2 ^ s + 2 ^ s * (sum / 2 ^ s)) * 2 ^ t := by
          rw [Int.emod_add_mul_ediv]
      _ = sum % 2 ^ s * 2 ^ t + y * 2 ^ t * 2 ^ s := by
          rw [h]
          ring
  rw [hsplit, Int.add_mul_ediv_right _ _ hs, Int.add_comm]

/-! ## Bounds -/

/-- The sum is within one unit of the scaled mean. -/
theorem Stands.le_sum (h : Stands sum y s) : y * 2 ^ s ≤ sum := by
  have hs : (0 : Int) < 2 ^ s := by positivity
  rw [h]
  exact Int.ediv_mul_le sum hs.ne'

theorem Stands.sum_lt (h : Stands sum y s) : sum < (y + 1) * 2 ^ s := by
  have hs : (0 : Int) < 2 ^ s := by positivity
  rw [h]
  exact Int.lt_ediv_add_one_mul_self sum hs

/-! ## One sample -/

/-- A sample above the mean moves it up, but not past the sample. -/
theorem Stands.le_step (h : Stands sum y s) (hyx : y ≤ x) :
    y ≤ (sum + (x - y)) / 2 ^ s ∧ (sum + (x - y)) / 2 ^ s ≤ x := by
  have hs : (0 : Int) < 2 ^ s := by positivity
  have hlo := h.le_sum
  have hhi := h.sum_lt
  constructor
  · rw [Int.le_ediv_iff_mul_le hs]
    linarith
  · rw [← Int.lt_add_one_iff, Int.ediv_lt_iff_lt_mul hs]
    nlinarith

/-- A sample below the mean moves it down, but not past the sample. -/
theorem Stands.step_le (h : Stands sum y s) (hxy : x ≤ y) :
    x ≤ (sum + (x - y)) / 2 ^ s ∧ (sum + (x - y)) / 2 ^ s ≤ y := by
  have hs : (0 : Int) < 2 ^ s := by positivity
  have hlo := h.le_sum
  have hhi := h.sum_lt
  constructor
  · rw [Int.le_ediv_iff_mul_le hs]
    nlinarith
  · rw [← Int.lt_add_one_iff, Int.ediv_lt_iff_lt_mul hs]
    linarith

/-- Whatever bounds the mean and the sample bounds the new mean. -/
theorem Stands.step_mem {lo hi : Int} (h : Stands sum y s) (hy : lo ≤ y ∧ y ≤ hi)
    (hx : lo ≤ x ∧ x ≤ hi) :
    lo ≤ (sum + (x - y)) / 2 ^ s ∧ (sum + (x - y)) / 2 ^ s ≤ hi := by
  rcases le_total y x with hyx | hxy
  · obtain ⟨h₁, h₂⟩ := h.le_step hyx
    exact ⟨hy.1.trans h₁, h₂.trans hx.2⟩
  · obtain ⟨h₁, h₂⟩ := h.step_le hxy
    exact ⟨hx.1.trans h₁, h₂.trans hy.2⟩

end ScaledMean
