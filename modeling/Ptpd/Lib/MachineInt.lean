import Mathlib.Tactic.Positivity
import Mathlib.Tactic.Ring

/-! # Fixed-width signed integers

    Signed machine integers are modelled by `Int`, with `wrapS w` applied where
    an operation of the program can leave the `w`-bit range. `SRange w x` says
    that `x` is a `w`-bit signed value; on such values `wrapS w` does nothing,
    which is what every exactness proof needs.
-/

namespace MachineInt

/-- The signed value of the low `w` bits of `x`. -/
def wrapS (w : Nat) (x : Int) : Int := x.bmod (2 ^ w)

/-- `x` is representable as a signed `w`-bit integer. -/
def SRange (w : Nat) (x : Int) : Prop := -2 ^ (w - 1) ≤ x ∧ x < 2 ^ (w - 1)

instance (w : Nat) (x : Int) : Decidable (SRange w x) := by
  unfold SRange; infer_instance

theorem wrapS_of_range {w : Nat} (hw : 0 < w) {x : Int} (h : SRange w x) : wrapS w x = x := by
  obtain ⟨k, rfl⟩ : ∃ k, w = k + 1 := ⟨w - 1, by omega⟩
  obtain ⟨hlo, hhi⟩ := h
  simp only [Nat.add_sub_cancel] at hlo hhi
  have hp : ((2 ^ (k + 1) : Nat) : Int) = 2 * 2 ^ k := by push_cast; ring
  unfold wrapS
  rw [Int.bmod_def, hp]
  generalize (2 : Int) ^ k = p at hlo hhi
  by_cases hx : 0 ≤ x
  · rw [Int.emod_eq_of_lt hx (by omega)]
    split <;> omega
  · rw [← Int.add_emod_right, Int.emod_eq_of_lt (by omega) (by omega)]
    split <;> omega

theorem wrapS_range {w : Nat} (hw : 0 < w) (x : Int) : SRange w (wrapS w x) := by
  obtain ⟨k, rfl⟩ : ∃ k, w = k + 1 := ⟨w - 1, by omega⟩
  have hpos : (0 : Int) < 2 ^ k := by positivity
  have hp : ((2 ^ (k + 1) : Nat) : Int) = 2 * 2 ^ k := by push_cast; ring
  unfold wrapS SRange
  simp only [Nat.add_sub_cancel]
  rw [Int.bmod_def, hp]
  generalize (2 : Int) ^ k = p at hpos
  have h0 := Int.emod_nonneg x (show 2 * p ≠ 0 by omega)
  have h1 := Int.emod_lt_of_pos x (show 0 < 2 * p by omega)
  split <;> constructor <;> omega

theorem wrapS_idem {w : Nat} (hw : 0 < w) (x : Int) : wrapS w (wrapS w x) = wrapS w x :=
  wrapS_of_range hw (wrapS_range hw x)

/-- Only the residue counts. -/
theorem wrapS_emod (w : Nat) (x : Int) : wrapS w (x % 2 ^ w) = wrapS w x := by
  have h := Int.emod_bmod x (2 ^ w)
  push_cast at h
  exact h

theorem wrapS_sub_pow (w : Nat) (x : Int) : wrapS w (x - 2 ^ w) = wrapS w x := by
  rw [← wrapS_emod w x, ← wrapS_emod w (x - 2 ^ w), Int.sub_emod_right]

/-- The form in which 32-bit arithmetic is discharged: two linear bounds. -/
theorem wrapS_32 {x : Int} (hlo : -2147483648 ≤ x) (hhi : x < 2147483648) : wrapS 32 x = x :=
  wrapS_of_range (by decide) ⟨by norm_num; exact hlo, by norm_num; exact hhi⟩

theorem wrapS_64 {x : Int} (hlo : -9223372036854775808 ≤ x) (hhi : x < 9223372036854775808) :
    wrapS 64 x = x :=
  wrapS_of_range (by decide) ⟨by norm_num; exact hlo, by norm_num; exact hhi⟩

/-! ## Truncating division -/

/-- Quotient and remainder of a truncating division have the sign of the dividend. -/
theorem tdiv_split (a : Int) {d : Int} (hd : 0 < d) :
    a = d * a.tdiv d + a.tmod d ∧ (-d < a.tmod d ∧ a.tmod d < d) ∧
      (0 ≤ a → 0 ≤ a.tdiv d ∧ 0 ≤ a.tmod d) ∧ (a ≤ 0 → a.tdiv d ≤ 0 ∧ a.tmod d ≤ 0) := by
  have hsum := Int.mul_tdiv_add_tmod a d
  have hpos : ∀ x : Int, 0 ≤ x → 0 ≤ x.tdiv d ∧ 0 ≤ x.tmod d ∧ x.tmod d < d := by
    intro x hx
    exact ⟨Int.tdiv_nonneg hx hd.le, Int.tmod_nonneg d hx, Int.tmod_lt_of_pos x hd⟩
  rcases le_total 0 a with ha | ha
  · obtain ⟨h₁, h₂, h₃⟩ := hpos a ha
    refine ⟨hsum.symm, ⟨by omega, h₃⟩, fun _ => ⟨h₁, h₂⟩, ?_⟩
    intro h
    obtain rfl : a = 0 := le_antisymm h ha
    simp
  · -- the quotient and the remainder of `-a`, negated
    obtain ⟨h₁, h₂, h₃⟩ := hpos (-a) (by omega)
    rw [Int.neg_tdiv] at h₁
    rw [Int.neg_tmod] at h₂ h₃
    refine ⟨hsum.symm, ⟨by omega, by omega⟩, fun h => ?_, fun _ => ⟨by omega, by omega⟩⟩
    obtain rfl : a = 0 := le_antisymm ha h
    simp

end MachineInt
