import Mathlib.Data.List.Chain
import Mathlib.Tactic.Common

/-! # A range in tiles

    A range of numbers is covered by tiles, used ones and free ones, one behind the other.
    Where no two free tiles are neighbours, a gap between what is used is inside of one free tile.
-/

namespace Tiling

structure Tile where
  start : Nat
  stop : Nat
  used : Bool
deriving DecidableEq

/-- The tiles go from `a` to `z`, and none is shorter than `least`. -/
def Tiles (least : Nat) : Nat → List Tile → Nat → Prop
  | a, [], z => a = z
  | a, t :: ts, z => t.start = a ∧ a + least ≤ t.stop ∧ Tiles least t.stop ts z

/-- The start of the first free tile, or `z`. -/
def lowest : List Tile → Nat → Nat
  | [], z => z
  | t :: ts, z => if t.used then lowest ts z else t.start

/-- Free neighbours have been merged. -/
def Merged (ts : List Tile) : Prop := ts.IsChain fun t u => t.used ∨ u.used

/-- The first free tile of this size. -/
def firstOf (size : Nat) (ts : List Tile) : Option Tile :=
  ts.find? fun t => !t.used && t.start + size ≤ t.stop

variable {least a z m : Nat} {t u : Tile} {ts xs ys : List Tile}

/-! ## Covering -/

@[simp] theorem tiles_nil : Tiles least a [] z ↔ a = z := Iff.rfl

@[simp] theorem tiles_cons :
    Tiles least a (t :: ts) z ↔ t.start = a ∧ a + least ≤ t.stop ∧ Tiles least t.stop ts z := Iff.rfl

theorem tiles_append :
    Tiles least a (xs ++ ys) z ↔ ∃ m, Tiles least a xs m ∧ Tiles least m ys z := by
  induction xs generalizing a with
  | nil => simp
  | cons t xs ih =>
    simp only [List.cons_append, tiles_cons, ih]
    constructor
    · rintro ⟨hstart, hleast, m, hxs, hys⟩
      exact ⟨m, ⟨hstart, hleast, hxs⟩, hys⟩
    · rintro ⟨m, ⟨hstart, hleast, hxs⟩, hys⟩
      exact ⟨hstart, hleast, m, hxs, hys⟩

theorem Tiles.le (h : Tiles least a ts z) : a ≤ z := by
  induction ts generalizing a with
  | nil => exact Nat.le_of_eq h
  | cons t ts ih =>
    obtain ⟨hstart, hleast, hrest⟩ := h
    have hle := ih hrest
    omega

theorem Tiles.mem (h : Tiles least a ts z) (ht : t ∈ ts) :
    a ≤ t.start ∧ t.start + least ≤ t.stop ∧ t.stop ≤ z := by
  induction ts generalizing a with
  | nil => cases ht
  | cons first ts ih =>
    obtain ⟨hstart, hleast, hrest⟩ := h
    cases ht with
    | head =>
      have hle := hrest.le
      omega
    | tail _ ht =>
      have hmem := ih hrest ht
      omega

/-- Of two tiles one is behind the other. -/
theorem Tiles.apart (h : Tiles least a ts z) (ht : t ∈ ts) (hu : u ∈ ts) :
    t = u ∨ t.stop ≤ u.start ∨ u.stop ≤ t.start := by
  induction ts generalizing a with
  | nil => cases ht
  | cons first ts ih =>
    obtain ⟨-, -, hrest⟩ := h
    cases ht with
    | head =>
      cases hu with
      | head => exact .inl rfl
      | tail _ hu => exact .inr (.inl (hrest.mem hu).1)
    | tail _ ht =>
      cases hu with
      | head => exact .inr (.inr (hrest.mem ht).1)
      | tail _ hu => exact ih hrest ht hu

theorem Tiles.length_le (h : Tiles least a ts z) : a + least * ts.length ≤ z := by
  induction ts generalizing a with
  | nil => simpa using h.le
  | cons t ts ih =>
    obtain ⟨hstart, hleast, hrest⟩ := h
    have hle := ih hrest
    rw [List.length_cons, Nat.mul_succ]
    omega

/-! ## The lowest free tile -/

@[simp] theorem lowest_nil : lowest [] z = z := rfl

@[simp] theorem lowest_cons : lowest (t :: ts) z = if t.used then lowest ts z else t.start := rfl

theorem lowest_append : lowest (xs ++ ys) z = lowest xs (lowest ys z) := by
  induction xs with
  | nil => rfl
  | cons t xs ih => simp [ih]

/-- What is behind matters if all tiles are used. -/
theorem lowest_cases (ts : List Tile) : ((∀ t ∈ ts, t.used) ∧ ∀ z, lowest ts z = z) ∨
    ∃ t ∈ ts, t.used = false ∧ ∀ z, lowest ts z = t.start := by
  induction ts with
  | nil => simp
  | cons t ts ih =>
    cases hused : t.used with
    | false => exact .inr ⟨t, List.mem_cons_self, hused, by simp [hused]⟩
    | true =>
      obtain ⟨hall, hz⟩ | ⟨u, hu, hfree, hstart⟩ := ih
      · refine .inl ⟨?_, by simpa [hused] using hz⟩
        simpa [hused] using hall
      · exact .inr ⟨u, List.mem_cons_of_mem _ hu, hfree, by simpa [hused] using hstart⟩

theorem Tiles.lowest_le (h : Tiles least a ts z) : a ≤ lowest ts z := by
  obtain ⟨-, hz⟩ | ⟨t, ht, -, hstart⟩ := lowest_cases ts
  · rw [hz]
    exact h.le
  · rw [hstart]
    exact (h.mem ht).1

/-! ## First fit -/

theorem firstOf_append {size : Nat} :
    firstOf size (xs ++ ys) = (firstOf size xs).or (firstOf size ys) := List.find?_append

theorem firstOf_used {size : Nat} (h : ∀ t ∈ ts, t.used) : firstOf size ts = none := by
  unfold firstOf
  rw [List.find?_eq_none]
  intro t ht
  simp [h t ht]

theorem firstOf_eq_none {size : Nat} :
    firstOf size ts = none ↔ ∀ t ∈ ts, t.used = false → t.stop < t.start + size := by
  unfold firstOf
  simp

/-- The tile that is found, between those before and those behind it. -/
theorem firstOf_eq_some {size : Nat} (h : firstOf size ts = some t) :
    t.used = false ∧ t.start + size ≤ t.stop ∧ ∃ xs ys, ts = xs ++ t :: ys := by
  have hfits := List.find?_some h
  obtain ⟨xs, ys, hsplit⟩ := List.append_of_mem (List.mem_of_find?_eq_some h)
  simp only [Bool.and_eq_true, Bool.not_eq_true', decide_eq_true_eq] at hfits
  exact ⟨hfits.1, hfits.2, xs, ys, hsplit⟩

/-! ## Merging -/

theorem merged_middle : Merged (xs ++ t :: ys) ↔ Merged xs ∧ (∀ u ∈ xs.getLast?, u.used ∨ t.used) ∧
    (∀ u ∈ ys.head?, t.used ∨ u.used) ∧ Merged ys := by
  unfold Merged
  rw [List.isChain_append, List.isChain_cons]
  simp only [List.head?_cons, Option.mem_some_iff, forall_eq']
  tauto

/-- A used tile has no free neighbour that it could be merged with. -/
theorem Merged.use (h : Merged (xs ++ t :: ys)) (hu : u.used) : Merged (xs ++ u :: ys) := by
  rw [merged_middle] at h ⊢
  simp [h, hu]

/-- The end of a free tile stays free. -/
theorem Merged.split {v : Tile} (h : Merged (xs ++ t :: ys)) (ht : t.used = false) (hu : u.used)
    (hv : v.used = false) : Merged (xs ++ u :: v :: ys) := by
  rw [merged_middle] at h ⊢
  unfold Merged
  rw [List.isChain_cons]
  simp only [ht, hu, hv, Bool.false_eq_true, or_true, true_or, false_or, implies_true, true_and] at h ⊢
  exact ⟨h.1, h.2.2⟩

/-! ## Gaps -/

section Gaps

variable {occupied : Tile → Nat} {x length waste : Nat}

/-- A gap that starts in or before a free tile ends with it. -/
theorem Tiles.gap_ends (h : Tiles least a (t :: ts) z) (hmerged : Merged (t :: ts))
    (hfree : t.used = false) (hx : x < t.stop) (hz : x + length ≤ z)
    (hclear : ∀ u ∈ ts, u.used → u.start + occupied u ≤ x ∨ x + length ≤ u.start) :
    x + length ≤ t.stop := by
  obtain ⟨-, -, hrest⟩ := h
  cases ts with
  | nil =>
    rw [tiles_nil] at hrest
    omega
  | cons u us =>
    have hused : u.used := by simpa [hfree] using (List.isChain_cons_cons.mp hmerged).1
    have hnext := hclear u List.mem_cons_self hused
    rw [hrest.1] at hnext
    omega

/-- If at most `waste` of a used tile is not occupied, a longer gap has a free tile in it. -/
theorem Tiles.gap (h : Tiles least a ts z) (hmerged : Merged ts)
    (hwaste : ∀ t ∈ ts, t.used → t.stop ≤ t.start + occupied t + waste)
    (hclear : ∀ t ∈ ts, t.used → t.start + occupied t ≤ x ∨ x + length ≤ t.start)
    (ha : a ≤ x) (hz : x + length ≤ z) (hlong : waste < length) :
    ∃ t ∈ ts, t.used = false ∧ t.start + length ≤ t.stop + waste := by
  induction ts generalizing a with
  | nil =>
    rw [tiles_nil] at h
    omega
  | cons t ts ih =>
    obtain ⟨hstart, hleast, hrest⟩ := id h
    have hothers : ∀ u ∈ ts, u.used → u.start + occupied u ≤ x ∨ x + length ≤ u.start :=
      fun u hu => hclear u (List.mem_cons_of_mem _ hu)
    by_cases hx : t.stop ≤ x
    · obtain ⟨u, hu, hfree, hsize⟩ := ih hrest (List.IsChain.tail hmerged)
        (fun u hu => hwaste u (List.mem_cons_of_mem _ hu)) hothers hx
      exact ⟨u, List.mem_cons_of_mem _ hu, hfree, hsize⟩
    · cases hused : t.used with
      | false =>
        have hends := h.gap_ends hmerged hused (by omega) hz hothers
        exact ⟨t, List.mem_cons_self, hused, by omega⟩
      | true =>
        -- the gap starts in what the tile does not occupy
        have hwaste' := hwaste t List.mem_cons_self hused
        have hclear' := hclear t List.mem_cons_self hused
        cases ts with
        | nil =>
          rw [tiles_nil] at hrest
          omega
        | cons u us =>
          have hnext := hrest.1
          cases hused' : u.used with
          | true =>
            have hclear'' := hothers u List.mem_cons_self hused'
            omega
          | false =>
            have hleast' := hrest.2.1
            have hends := hrest.gap_ends (List.IsChain.tail hmerged) hused' (by omega) hz
              fun v hv => hothers v (List.mem_cons_of_mem _ hv)
            exact ⟨u, by simp, hused', by omega⟩

end Gaps

end Tiling
