import Mathlib.Data.Nat.ModEq
import Mathlib.Logic.Function.Basic

/-! # Ring buffers

    A ring of `n` slots holds `count` elements, from slot `get` on and around the
    end. Elements are put into the slot after the last one and taken from the
    first: as long as the ring is not full it is a queue.
-/

namespace Ring

variable {α : Type*} {n get put count : Nat} {slot : Nat → α}

/-- The elements held, oldest first. -/
def contents (n : Nat) (slot : Nat → α) : Nat → Nat → List α
  | _, 0 => []
  | get, count + 1 => slot get :: contents n slot ((get + 1) % n) count

@[simp] theorem contents_zero (n get : Nat) (slot : Nat → α) : contents n slot get 0 = [] := rfl

@[simp] theorem contents_succ (n get count : Nat) (slot : Nat → α) :
    contents n slot get (count + 1) = slot get :: contents n slot ((get + 1) % n) count := rfl

@[simp] theorem length_contents (n get count : Nat) (slot : Nat → α) :
    (contents n slot get count).length = count := by
  induction count generalizing get with
  | zero => rfl
  | succ count ih => simp [ih]

/-- Only the occupied slots are read. -/
theorem contents_congr {slot' : Nat → α} (hget : get < n)
    (h : ∀ i < count, slot' ((get + i) % n) = slot ((get + i) % n)) :
    contents n slot' get count = contents n slot get count := by
  induction count generalizing get with
  | zero => rfl
  | succ count ih =>
    have hfirst := h 0 (by omega)
    rw [Nat.add_zero, Nat.mod_eq_of_lt hget] at hfirst
    have hrest : contents n slot' ((get + 1) % n) count =
        contents n slot ((get + 1) % n) count := by
      apply ih (Nat.mod_lt _ (by omega))
      intro i hi
      have hnext := h (i + 1) (by omega)
      rw [Nat.mod_add_mod, show get + 1 + i = get + (i + 1) by omega]
      exact hnext
    rw [contents_succ, contents_succ, hfirst, hrest]

theorem contents_append (hget : get < n) :
    contents n slot get (count + 1) = contents n slot get count ++ [slot ((get + count) % n)] := by
  induction count generalizing get with
  | zero => simp [Nat.mod_eq_of_lt hget]
  | succ count ih =>
    have hnext : (get + 1) % n < n := Nat.mod_lt _ (by omega)
    have hrest := ih hnext
    rw [Nat.mod_add_mod, show get + 1 + count = get + (count + 1) by omega] at hrest
    rw [contents_succ, hrest, contents_succ, List.cons_append]

/-- Where the ring is read and written. -/
structure WellFormed (n get put count : Nat) : Prop where
  get_lt : get < n
  count_le : count ≤ n
  put_eq : put = (get + count) % n

theorem WellFormed.empty (hn : 0 < n) : WellFormed n 0 0 0 := ⟨hn, by omega, by simp⟩

theorem WellFormed.push (h : WellFormed n get put count) (hroom : count < n) :
    WellFormed n get ((put + 1) % n) (count + 1) := by
  refine ⟨h.get_lt, hroom, ?_⟩
  rw [h.put_eq, Nat.mod_add_mod, Nat.add_assoc]

theorem WellFormed.pop (h : WellFormed n get put (count + 1)) :
    WellFormed n ((get + 1) % n) put count := by
  have hcount := h.count_le
  refine ⟨Nat.mod_lt _ (by omega), by omega, ?_⟩
  rw [h.put_eq, Nat.mod_add_mod, show get + 1 + count = get + (count + 1) by omega]

/-- A ring that is not full takes one more element. -/
theorem WellFormed.contents_push (h : WellFormed n get put count) (hroom : count < n) (x : α) :
    contents n (fun j => if j = put then x else slot j) get (count + 1) =
      contents n slot get count ++ [x] := by
  have hold : contents n (fun j => if j = put then x else slot j) get count =
      contents n slot get count := by
    apply contents_congr h.get_lt
    intro i hi
    have hne : (get + i) % n ≠ put := by
      -- two occupied slots are less than one turn apart
      intro heq
      rw [h.put_eq] at heq
      have hmod : i ≡ count [MOD n] := Nat.ModEq.add_left_cancel' get heq
      have hsame := Nat.ModEq.eq_of_lt_of_lt hmod (by omega) hroom
      omega
    exact if_neg hne
  rw [contents_append h.get_lt, hold, ← h.put_eq, if_pos rfl]

end Ring
