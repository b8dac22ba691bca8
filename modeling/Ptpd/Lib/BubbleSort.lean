import Mathlib.Data.List.Perm.Basic
import Mathlib.Order.Lattice

/-! # Bubble sort

    An array is sorted in place by passes over its pairs of neighbours. A pass
    carries the greatest element it meets to its end, so that the next pass can
    be shorter by one pair.
-/

namespace BubbleSort

variable {α : Type*} [LinearOrder α]

/-- A pass over the first so many pairs of neighbours. -/
def pass : Nat → List α → List α
  | k + 1, a :: b :: l => if a > b then b :: pass k (a :: l) else a :: pass k (b :: l)
  | _, l => l

/-- Passes over so many pairs, then over one fewer, and so on. -/
def passes : Nat → List α → List α
  | 0, l => l
  | k + 1, l => passes k (pass (k + 1) l)

def sort (l : List α) : List α := passes (l.length - 1) l

/-- **One pass** brings the greatest element to its end, and keeps what is behind. -/
theorem pass_spec (a : α) (l back : List α) :
    ∃ front m, pass l.length (a :: l ++ back) = front ++ m :: back ∧
      (front ++ [m]).Perm (a :: l) ∧ ∀ x ∈ front, x ≤ m := by
  induction l generalizing a with
  | nil => exact ⟨[], a, rfl, List.Perm.refl _, fun x hx => absurd hx List.not_mem_nil⟩
  | cons b l ih =>
    by_cases hab : a > b
    · obtain ⟨front, m, hpass, hperm, hle⟩ := ih a
      have ham : a ≤ m := by
        rcases List.mem_append.mp (hperm.mem_iff.mpr List.mem_cons_self) with h | h
        · exact hle a h
        · exact (List.mem_singleton.mp h).le
      refine ⟨b :: front, m, ?_, (hperm.cons b).trans (List.Perm.swap a b l), ?_⟩
      · rw [show b :: front ++ m :: back = b :: (front ++ m :: back) from rfl, ← hpass]
        exact if_pos hab
      · intro x hx
        rcases List.mem_cons.mp hx with rfl | hx
        · exact hab.le.trans ham
        · exact hle x hx
    · obtain ⟨front, m, hpass, hperm, hle⟩ := ih b
      have hbm : b ≤ m := by
        rcases List.mem_append.mp (hperm.mem_iff.mpr List.mem_cons_self) with h | h
        · exact hle b h
        · exact (List.mem_singleton.mp h).le
      refine ⟨a :: front, m, ?_, hperm.cons a, ?_⟩
      · rw [show a :: front ++ m :: back = a :: (front ++ m :: back) from rfl, ← hpass]
        exact if_neg hab
      · intro x hx
        rcases List.mem_cons.mp hx with rfl | hx
        · exact (not_lt.mp hab).trans hbm
        · exact hle x hx

/-- **Invariant of the passes**: what is behind the range of the next pass is sorted, and no
    element of the range exceeds it. -/
theorem passes_spec {k : Nat} {range back : List α} (hk : range.length = k + 1)
    (hback : back.Pairwise (· ≤ ·)) (hle : ∀ x ∈ range, ∀ y ∈ back, x ≤ y) :
    (passes k (range ++ back)).Pairwise (· ≤ ·) ∧
      (passes k (range ++ back)).Perm (range ++ back) := by
  induction k generalizing range back with
  | zero =>
    obtain ⟨a, rfl⟩ := List.length_eq_one_iff.mp hk
    exact ⟨List.pairwise_cons.mpr ⟨hle a List.mem_cons_self, hback⟩, List.Perm.refl _⟩
  | succ k ih =>
    cases range with
    | nil => cases hk
    | cons a l =>
      have hl : l.length = k + 1 := Nat.succ.inj hk
      obtain ⟨front, m, hpass, hperm, hfront⟩ := pass_spec a l back
      have hlength : front.length = k + 1 := by
        have := hperm.length_eq
        rw [List.length_append, List.length_singleton, hk] at this
        exact Nat.succ.inj this
      have hrange : ∀ x ∈ front ++ [m], x ∈ a :: l := fun x hx => hperm.mem_iff.mp hx
      have hm : ∀ y ∈ back, m ≤ y :=
        hle m (hrange m (List.mem_append_right _ (List.mem_singleton.mpr rfl)))
      have hfront' : ∀ x ∈ front, ∀ y ∈ m :: back, x ≤ y := by
        intro x hx y hy
        rcases List.mem_cons.mp hy with rfl | hy
        · exact hfront x hx
        · exact hle x (hrange x (List.mem_append_left _ hx)) y hy
      obtain ⟨hsorted, hpasses⟩ := ih hlength (List.pairwise_cons.mpr ⟨hm, hback⟩) hfront'
      rw [hl] at hpass
      unfold passes
      rw [hpass]
      refine ⟨hsorted, hpasses.trans ?_⟩
      have happend := hperm.append_right back
      rw [List.append_assoc] at happend
      exact happend

theorem sort_spec (l : List α) : (sort l).Pairwise (· ≤ ·) ∧ (sort l).Perm l := by
  cases l with
  | nil => exact ⟨List.Pairwise.nil, List.Perm.refl _⟩
  | cons a l =>
    have hspec : (passes l.length (a :: l ++ [])).Pairwise (· ≤ ·) ∧
        (passes l.length (a :: l ++ [])).Perm (a :: l ++ []) :=
      passes_spec rfl List.Pairwise.nil fun x _ y hy => absurd hy List.not_mem_nil
    rw [List.append_nil] at hspec
    exact hspec

/-- **The result is sorted.** -/
theorem sort_pairwise (l : List α) : (sort l).Pairwise (· ≤ ·) := (sort_spec l).1

theorem sort_perm (l : List α) : (sort l).Perm l := (sort_spec l).2

end BubbleSort
