import Mathlib.Data.List.Lex
import Mathlib.Data.Prod.Lex

/-! # Three-way comparison

    The comparison of a linear order as a signed number: positive if the first
    value comes first, negative if the second does. On lexicographic pairs it is
    what a chain of comparisons computes, each of which decides if it can.
-/

namespace ThreeWay

variable {α β : Type*} [LinearOrder α] [LinearOrder β] {a b c : α} {x y : β}

/-- `1` if `a` comes before `b`, `-1` if it comes after it. -/
def threeWay (a b : α) : Int :=
  if b < a then -1 else if a < b then 1 else 0

theorem threeWay_eq_one : threeWay a b = 1 ↔ a < b := by
  unfold threeWay
  rcases lt_trichotomy a b with h | h | h
  · simp [h, h.le.not_gt]
  · simp [h]
  · simp [h, h.le.not_gt]

theorem threeWay_neg_iff : threeWay a b < 0 ↔ b < a := by
  unfold threeWay
  rcases lt_trichotomy a b with h | h | h
  · simp [h, h.le.not_gt]
  · simp [h]
  · simp [h]

theorem threeWay_eq_zero : threeWay a b = 0 ↔ a = b := by
  unfold threeWay
  rcases lt_trichotomy a b with h | h | h
  · simp [h, h.le.not_gt, h.ne]
  · simp [h]
  · simp [h, h.ne']

/-- The comparison turns round with its sides. -/
theorem threeWay_swap (a b : α) : threeWay a b = -threeWay b a := by
  unfold threeWay
  rcases lt_trichotomy a b with h | h | h
  · simp [h, h.le.not_gt]
  · simp [h]
  · simp [h, h.le.not_gt]

theorem threeWay_trans (hab : threeWay a b = 1) (hbc : threeWay b c = 1) : threeWay a c = 1 :=
  threeWay_eq_one.mpr ((threeWay_eq_one.mp hab).trans (threeWay_eq_one.mp hbc))

/-! ## Chains of comparisons -/

/-- The first components decide if they differ. -/
theorem threeWay_lex (a b : α) (x y : β) :
    threeWay (toLex (a, x)) (toLex (b, y)) =
      if b < a then -1 else if a < b then 1 else threeWay x y := by
  unfold threeWay
  rcases lt_trichotomy a b with h | rfl | h
  · simp [Prod.Lex.toLex_lt_toLex, h, h.le.not_gt, h.ne']
  · simp [Prod.Lex.toLex_lt_toLex]
  · simp [Prod.Lex.toLex_lt_toLex, h]

theorem threeWay_lex_eq (a : α) (x y : β) :
    threeWay (toLex (a, x)) (toLex (a, y)) = threeWay x y := by
  rw [threeWay_lex, if_neg (lt_irrefl a), if_neg (lt_irrefl a)]

theorem threeWay_lex_ne (h : a ≠ b) (x y : β) :
    threeWay (toLex (a, x)) (toLex (b, y)) = threeWay a b := by
  rw [threeWay_lex]
  unfold threeWay
  rcases lt_or_gt_of_ne h with hlt | hlt
  · simp [hlt, hlt.le.not_gt]
  · simp [hlt]

end ThreeWay
