import Mathlib.Tactic.Common

/-! # Data in segments

    Data is stored in segments of a size, one behind the other. What is cut off at the
    front of the first segment or at the end is cut off of the data.
-/

namespace Segments

universe u

variable {α : Type u}

/-- All segments but the last are full. Data of length zero has one segment too. -/
def split (size : Nat) (data : List α) : List (List α) :=
  if size < data.length ∧ 0 < size then data.take size :: split size (data.drop size) else [data]
termination_by data.length
decreasing_by
  rw [List.length_drop]
  omega

/-- Without the first `n` elements, all of the first segment. -/
def behind (n : Nat) : List (List α) → List (List α)
  | [] => []
  | segment :: segments => segment.drop n :: segments

/-- The first `n` elements: what is behind them is cut off, and at least one segment is left. -/
def trim (n : Nat) : List (List α) → List (List α)
  | [] => []
  | segment :: segments =>
    if n > segment.length then segment :: trim (n - segment.length) segments else [segment.take n]

variable {size n : Nat} {data segment : List α} {segments : List (List α)}

theorem split_long (h : size < data.length) (hsize : 0 < size) :
    split size data = data.take size :: split size (data.drop size) := by
  rw [split, if_pos ⟨h, hsize⟩]

theorem split_short (h : data.length ≤ size) : split size data = [data] := by
  rw [split, if_neg (by omega)]

@[simp] theorem flatten_split : (split size data).flatten = data := by
  fun_induction split size data with
  | case1 data h ih => rw [List.flatten_cons, ih, List.take_append_drop]
  | case2 data h => simp

/-- The first segment is full, or it is all. -/
theorem split_eq_cons (data : List α) (hsize : 0 < size) :
    ∃ segments, split size data = data.take size :: segments := by
  by_cases h : size < data.length
  · exact ⟨_, split_long h hsize⟩
  · refine ⟨[], ?_⟩
    rw [split_short (by omega), List.take_of_length_le (by omega)]

theorem split_nonempty (hdata : data ≠ []) : ∀ segment ∈ split size data, segment ≠ [] := by
  fun_induction split size data with
  | case1 data h ih =>
    intro segment hmem
    cases hmem with
    | head =>
      intro hnil
      have hzero := congrArg List.length hnil
      rw [List.length_take, List.length_nil] at hzero
      omega
    | tail _ hmem =>
      have hlength : (data.drop size).length = data.length - size := List.length_drop
      exact ih (List.length_pos_iff.mp (by omega)) segment hmem
  | case2 data h =>
    intro segment hmem
    rw [List.mem_singleton.mp hmem]
    exact hdata

/-! ## At the front -/

theorem flatten_behind (h : n ≤ segment.length) :
    (behind n (segment :: segments)).flatten = (segment :: segments).flatten.drop n := by
  rw [behind, List.flatten_cons, List.flatten_cons, List.drop_append_of_le_length h]

/-! ## At the end -/

theorem flatten_trim (h : n ≤ segments.flatten.length) :
    (trim n segments).flatten = segments.flatten.take n := by
  induction segments generalizing n with
  | nil => rw [trim, List.flatten_nil, List.take_nil]
  | cons segment segments ih =>
    rw [List.flatten_cons, List.length_append] at h
    rw [List.flatten_cons, List.take_append, trim]
    by_cases hmore : n > segment.length
    · have hall : segment.take n = segment := List.take_of_length_le (by omega)
      rw [if_pos hmore, List.flatten_cons, ih (by omega), hall]
    · rw [if_neg hmore, show n - segment.length = 0 by omega]
      simp

theorem trim_nonempty (hn : 0 < n) (h : ∀ segment ∈ segments, segment ≠ []) :
    ∀ segment ∈ trim n segments, segment ≠ [] := by
  induction segments generalizing n with
  | nil =>
    intro segment hmem
    cases hmem
  | cons first segments ih =>
    intro segment hmem
    have hfirst := List.length_pos_iff.mpr (h first List.mem_cons_self)
    rw [trim] at hmem
    by_cases hmore : n > first.length
    · rw [if_pos hmore] at hmem
      cases hmem with
      | head => exact h first List.mem_cons_self
      | tail _ hmem =>
        exact ih (by omega) (fun s hs => h s (List.mem_cons_of_mem _ hs)) segment hmem
    · rw [if_neg hmore] at hmem
      rw [List.mem_singleton.mp hmem]
      intro hnil
      have hzero := congrArg List.length hnil
      rw [List.length_take, List.length_nil] at hzero
      omega

theorem trim_eq_cons (n : Nat) (segment : List α) (segments : List (List α)) :
    ∃ rest, trim n (segment :: segments) = segment.take n :: rest := by
  rw [trim]
  by_cases hmore : n > segment.length
  · rw [if_pos hmore, List.take_of_length_le (by omega)]
    exact ⟨_, rfl⟩
  · rw [if_neg hmore]
    exact ⟨[], rfl⟩

end Segments
