import Mathlib.Data.Finset.Card
import Mathlib.Data.List.Basic

/-! # A table of slots under keys

    A fixed number of slots, each free or taken by an entry under its key; free
    slots are those of key 0. A new entry goes into the slot of its own key, else
    into the first free one, else it replaces the entry whose turn it is.

    The turn may leave the table: it comes back to 0 only once it has passed `size`.
-/

namespace SlotTable

/-- The slots, also those behind the table, and the slot whose turn it is. -/
structure Slots (E : Type*) where
  entry : Nat → E
  turn : Nat

namespace Slots

variable {E K : Type*} [DecidableEq K]

/-! ## The operation -/

section Find

variable (key : E → K) (size : Nat)

/-- The first slot with key `k`. -/
def find (s : Slots E) (k : K) : Option Nat :=
  (List.range size).find? fun i => key (s.entry i) = k

variable {key size} {s : Slots E} {k : K}

theorem find_eq_some {i : Nat} (h : s.find key size k = some i) :
    i < size ∧ key (s.entry i) = k := by
  have hmem := List.mem_range.mp (List.mem_of_find?_eq_some h)
  have hkey := List.find?_some h
  exact ⟨hmem, of_decide_eq_true hkey⟩

theorem find_eq_none (h : s.find key size k = none) : ∀ i < size, key (s.entry i) ≠ k := by
  intro i hi hkey
  have hnone := List.find?_eq_none.mp h i (List.mem_range.mpr hi)
  exact hnone (decide_eq_true hkey)

end Find

variable [Zero K] (key : E → K) (size : Nat)

/-- Where an entry with key `k` goes. -/
def slot (s : Slots E) (k : K) : Nat :=
  match s.find key size k with
  | some i => i
  | none =>
    match s.find key size 0 with
    | some i => i
    | none => s.turn

/-- Every slot is taken, and under another key. -/
def Crowded (s : Slots E) (k : K) : Prop :=
  ∀ i < size, key (s.entry i) ≠ k ∧ key (s.entry i) ≠ 0

instance (s : Slots E) (k : K) : Decidable (s.Crowded key size k) :=
  inferInstanceAs (Decidable (∀ i < size, _))

def nextTurn (turn : Nat) : Nat := if turn + 1 > size then 0 else turn + 1

def put (s : Slots E) (e : E) : Slots E where
  entry := Function.update s.entry (s.slot key size (key e)) e
  turn := if s.Crowded key size (key e) then nextTurn size s.turn else s.turn

variable {key size} {s : Slots E} {k : K} {e : E}

/-- The three places an entry may go to. -/
theorem slot_cases (key : E → K) (size : Nat) (s : Slots E) (k : K) :
    (s.slot key size k < size ∧ key (s.entry (s.slot key size k)) = k ∧ ¬ s.Crowded key size k) ∨
    (s.slot key size k < size ∧ key (s.entry (s.slot key size k)) = 0 ∧
      (∀ i < size, key (s.entry i) ≠ k) ∧ ¬ s.Crowded key size k) ∨
    (s.slot key size k = s.turn ∧ s.Crowded key size k) := by
  unfold slot
  cases hown : s.find key size k with
  | some i =>
    obtain ⟨hi, hkey⟩ := find_eq_some hown
    exact .inl ⟨hi, hkey, fun hcrowded => (hcrowded i hi).1 hkey⟩
  | none =>
    have hunknown := find_eq_none hown
    cases hfree : s.find key size 0 with
    | some i =>
      obtain ⟨hi, hkey⟩ := find_eq_some hfree
      exact .inr (.inl ⟨hi, hkey, hunknown, fun hcrowded => (hcrowded i hi).2 hkey⟩)
    | none => exact .inr (.inr ⟨rfl, fun i hi => ⟨hunknown i hi, find_eq_none hfree i hi⟩⟩)

theorem slot_lt_of_not_crowded (h : ¬ s.Crowded key size k) : s.slot key size k < size := by
  rcases slot_cases key size s k with ⟨hlt, -⟩ | ⟨hlt, -⟩ | ⟨-, hcrowded⟩
  · exact hlt
  · exact hlt
  · exact absurd hcrowded h

theorem slot_of_crowded (h : s.Crowded key size k) : s.slot key size k = s.turn := by
  rcases slot_cases key size s k with ⟨-, -, hnot⟩ | ⟨-, -, -, hnot⟩ | ⟨hturn, -⟩
  · exact absurd h hnot
  · exact absurd h hnot
  · exact hturn

theorem put_slot : (s.put key size e).entry (s.slot key size (key e)) = e :=
  Function.update_self ..

theorem put_other {i : Nat} (h : i ≠ s.slot key size (key e)) :
    (s.put key size e).entry i = s.entry i :=
  Function.update_of_ne h ..

theorem nextTurn_le (turn : Nat) : nextTurn size turn ≤ size := by
  unfold nextTurn
  split <;> omega

theorem put_turn_le (h : s.turn ≤ size) : (s.put key size e).turn ≤ size := by
  unfold put
  dsimp only
  split
  · exact nextTurn_le s.turn
  · exact h

/-! ## Keys are kept apart -/

/-- No key but 0 is found twice. -/
def Distinct (key : E → K) (size : Nat) (s : Slots E) : Prop :=
  ∀ i < size, ∀ j < size, key (s.entry i) = key (s.entry j) → key (s.entry i) ≠ 0 → i = j

omit [DecidableEq K] in
theorem Distinct.of_free (h : ∀ i < size, key (s.entry i) = 0) : s.Distinct key size :=
  fun i hi _ _ _ hne => absurd (h i hi) hne

/-- An entry goes where its key is, if it is anywhere. -/
theorem Distinct.slot_eq (hs : s.Distinct key size) (hk : k ≠ 0) {i : Nat} (hi : i < size)
    (hkey : key (s.entry i) = k) : i = s.slot key size k := by
  rcases slot_cases key size s k with ⟨hlt, hslot, -⟩ | ⟨-, -, hunknown, -⟩ | ⟨-, hcrowded⟩
  · exact hs i hi _ hlt (hkey.trans hslot.symm) (hkey ▸ hk)
  · exact absurd hkey (hunknown i hi)
  · exact absurd hkey (hcrowded i hi).1

theorem Distinct.put (hs : s.Distinct key size) (e : E) : (s.put key size e).Distinct key size := by
  intro i hi j hj hkey hne
  by_cases hislot : i = s.slot key size (key e)
  · by_cases hjslot : j = s.slot key size (key e)
    · rw [hislot, hjslot]
    · rw [hislot, put_slot] at hkey hne
      rw [put_other hjslot] at hkey
      exact absurd (hs.slot_eq hne hj hkey.symm) hjslot
  · rw [put_other hislot] at hkey hne
    by_cases hjslot : j = s.slot key size (key e)
    · rw [hjslot, put_slot] at hkey
      exact absurd (hs.slot_eq (hkey ▸ hne) hi hkey) hislot
    · rw [put_other hjslot] at hkey
      exact hs i hi j hj hkey hne

/-! ## Entries one after the other -/

/-- The entry is written inside the table and found there, and keys stay apart. -/
structure Recorded (key : E → K) (size : Nat) (s : Slots E) (e : E) : Prop where
  inside : s.slot key size (key e) < size
  distinct : (s.put key size e).Distinct key size
  found : ∃ i < size, (s.put key size e).entry i = e

theorem Distinct.recorded (hs : s.Distinct key size) (h : s.slot key size (key e) < size) :
    s.Recorded key size e :=
  ⟨h, hs.put e, _, h, put_slot⟩

/-- From a free table on: each entry that was put, with the table that it met. -/
inductive Run (key : E → K) (size : Nat) : List (Slots E × E) → Slots E → Prop where
  | start {s : Slots E} : (∀ i < size, key (s.entry i) = 0) → s.turn = 0 → Run key size [] s
  | put {hist : List (Slots E × E)} {s : Slots E} (e : E) :
      Run key size hist s → Run key size (hist ++ [(s, e)]) (s.put key size e)

/-- How many of the entries took the place of another. -/
def replacements (key : E → K) (size : Nat) (hist : List (Slots E × E)) : Nat :=
  hist.countP fun x => x.1.Crowded key size (key x.2)

theorem Run.turn_le {hist : List (Slots E × E)} (h : Run key size hist s) : s.turn ≤ size := by
  induction h with
  | start _ hturn => omega
  | put e _ ih => exact put_turn_le ih

theorem Run.distinct {hist : List (Slots E × E)} (h : Run key size hist s) :
    s.Distinct key size := by
  induction h with
  | start hfree _ => exact .of_free hfree
  | put e _ ih => exact ih.put e

theorem Run.distinct_of_mem {hist : List (Slots E × E)} (h : Run key size hist s) :
    ∀ x ∈ hist, x.1.Distinct key size := by
  induction h with
  | start _ _ => simp
  | @put hist s e hrun ih =>
    intro x hx
    rcases List.mem_append.mp hx with hx | hx
    · exact ih x hx
    · rw [List.mem_singleton.mp hx]
      exact hrun.distinct

/-- The turn counts the replacements until it has left the table. -/
theorem Run.turn_or_left {hist : List (Slots E × E)} (h : Run key size hist s) :
    (replacements key size hist ≤ size ∧ s.turn = replacements key size hist ∧
      ∀ x ∈ hist, x.1.Recorded key size x.2) ∨
    (size < replacements key size hist ∧ ∃ x ∈ hist, ¬ x.1.Recorded key size x.2) := by
  induction h with
  | start _ hturn => exact .inl ⟨Nat.zero_le _, hturn, by simp⟩
  | @put hist s e hrun ih =>
    have hcount : replacements key size (hist ++ [(s, e)]) =
        replacements key size hist + if s.Crowded key size (key e) then 1 else 0 := by
      unfold replacements
      rw [List.countP_append, List.countP_singleton]
      simp only [decide_eq_true_eq]
    have hall : (∀ x ∈ hist, x.1.Recorded key size x.2) → s.Recorded key size e →
        ∀ x ∈ hist ++ [(s, e)], x.1.Recorded key size x.2 := by
      intro hbefore hlast x hx
      rcases List.mem_append.mp hx with hx | hx
      · exact hbefore x hx
      · rw [List.mem_singleton.mp hx]
        exact hlast
    rcases ih with ⟨hle, hturn, hrecorded⟩ | ⟨hgt, x, hx, hnot⟩
    · by_cases hcrowded : s.Crowded key size (key e)
      · rw [if_pos hcrowded] at hcount
        have hslot := slot_of_crowded hcrowded
        by_cases hlt : s.turn < size
        · refine .inl ⟨by omega, ?_, hall hrecorded (hrun.distinct.recorded (by omega))⟩
          have hnext : (s.put key size e).turn = nextTurn size s.turn := if_pos hcrowded
          rw [hnext, nextTurn, if_neg (by omega)]
          omega
        · -- the slot behind the last one
          refine .inr ⟨by omega, (s, e), by simp, ?_⟩
          intro hrec
          have hinside : s.slot key size (key e) < size := hrec.inside
          omega
      · rw [if_neg hcrowded] at hcount
        have hinside := slot_lt_of_not_crowded hcrowded
        have hsame : (s.put key size e).turn = s.turn := if_neg hcrowded
        exact .inl ⟨by omega, by omega, hall hrecorded (hrun.distinct.recorded hinside)⟩
    · exact .inr ⟨by omega, x, List.mem_append_left _ hx, hnot⟩

/-- Every entry is recorded exactly if at most `size` of them replace another. -/
theorem Run.recorded_iff {hist : List (Slots E × E)} (h : Run key size hist s) :
    (∀ x ∈ hist, x.1.Recorded key size x.2) ↔ replacements key size hist ≤ size := by
  rcases h.turn_or_left with ⟨hle, -, hrecorded⟩ | ⟨hgt, x, hx, hnot⟩
  · exact iff_of_true hrecorded hle
  · exact iff_of_false (fun hall => hnot (hall x hx)) (by omega)

/-- No entry is written behind the table exactly if at most `size` of them replace
    another. -/
theorem Run.inside_iff {hist : List (Slots E × E)} (h : Run key size hist s) :
    (∀ x ∈ hist, x.1.slot key size (key x.2) < size) ↔ replacements key size hist ≤ size := by
  rw [← h.recorded_iff]
  refine ⟨fun hinside x hx => ?_, fun hrecorded x hx => (hrecorded x hx).inside⟩
  exact (h.distinct_of_mem x hx).recorded (hinside x hx)

/-! ## The table as a map -/

/-- The slots taken are those of the keys in `last`, each with its entry. -/
structure Represents (key : E → K) (size : Nat) (s : Slots E) (last : K → Option E) : Prop where
  distinct : s.Distinct key size
  found : ∀ k ≠ 0, ∀ e, last k = some e → key e = k ∧ ∃ i < size, s.entry i = e
  only : ∀ i < size, key (s.entry i) ≠ 0 → last (key (s.entry i)) = some (s.entry i)

omit [DecidableEq K] in
theorem Represents.of_free (h : ∀ i < size, key (s.entry i) = 0) :
    s.Represents key size fun _ => none :=
  ⟨.of_free h, fun _ _ _ hsome => by simp at hsome, fun i hi hne => absurd (h i hi) hne⟩

theorem Represents.put {last : K → Option E} (h : s.Represents key size last)
    (hcrowded : ¬ s.Crowded key size (key e)) :
    (s.put key size e).Represents key size (Function.update last (key e) (some e)) where
  distinct := h.distinct.put e
  found k hk e' he' := by
    by_cases hkey : k = key e
    · rw [hkey, Function.update_self] at he'
      cases he'
      exact ⟨hkey.symm, _, slot_lt_of_not_crowded hcrowded, put_slot⟩
    · rw [Function.update_of_ne hkey] at he'
      obtain ⟨hkeyof, i, hi, hentry⟩ := h.found k hk e' he'
      refine ⟨hkeyof, i, hi, ?_⟩
      -- the slot written held the key of `e` or was free
      rw [put_other, hentry]
      rintro rfl
      rcases slot_cases key size s (key e) with ⟨-, hslot, -⟩ | ⟨-, hslot, -⟩ | ⟨-, hfull⟩
      · exact hkey (by rw [← hkeyof, ← hentry, hslot])
      · exact hk (by rw [← hkeyof, ← hentry, hslot])
      · exact hcrowded hfull
  only i hi hne := by
    by_cases hislot : i = s.slot key size (key e)
    · rw [hislot, put_slot, Function.update_self]
    · rw [put_other hislot] at hne ⊢
      rw [Function.update_of_ne (fun hkey => hislot (h.distinct.slot_eq (hkey ▸ hne) hi hkey))]
      exact h.only i hi hne

/-- A table with a slot for every key that is in use is never crowded. -/
theorem Represents.not_crowded {last : K → Option E} (h : s.Represents key size last)
    {keys : Finset K} (hlast : ∀ k, last k ≠ none → k ∈ keys) (hcard : keys.card ≤ size)
    (hk : k ∈ keys) : ¬ s.Crowded key size k := by
  intro hcrowded
  have hmaps : Set.MapsTo (fun i => key (s.entry i)) (Finset.range size) (keys.erase k) := by
    intro i hi
    have hlt := Finset.mem_range.mp hi
    obtain ⟨hne, hzero⟩ := hcrowded i hlt
    refine Finset.mem_erase.mpr ⟨hne, hlast _ ?_⟩
    rw [h.only i hlt hzero]
    exact Option.some_ne_none _
  have hinj : Set.InjOn (fun i => key (s.entry i)) (Finset.range size) := by
    intro i hi j hj hij
    have hlt := Finset.mem_range.mp hi
    exact h.distinct i hlt j (Finset.mem_range.mp hj) hij (hcrowded i hlt).2
  have hle := Finset.card_le_card_of_injOn _ hmaps hinj
  have hpos := Finset.card_pos.mpr ⟨k, hk⟩
  rw [Finset.card_range, Finset.card_erase_of_mem hk] at hle
  omega

end Slots

end SlotTable
