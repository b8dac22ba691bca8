import Mathlib.Data.List.Basic
import Mathlib.Data.UInt

/-! # Checksums by exclusive or

    The exclusive or of all octets. A message that ends in the checksum of what
    stands before it has checksum 0, and no single octet of it can change unnoticed.
-/

namespace Checksum

/-- The exclusive or of the octets. -/
def xorSum (octets : List UInt8) : UInt8 := octets.foldl (· ^^^ ·) 0

theorem foldl_xor (octets : List UInt8) (a : UInt8) :
    octets.foldl (· ^^^ ·) a = a ^^^ xorSum octets := by
  unfold xorSum
  induction octets generalizing a with
  | nil => simp
  | cons x octets ih =>
    rw [List.foldl_cons, List.foldl_cons, ih (a ^^^ x), ih (0 ^^^ x)]
    simp [UInt8.xor_assoc]

theorem xorSum_cons (x : UInt8) (octets : List UInt8) :
    xorSum (x :: octets) = x ^^^ xorSum octets := by
  have hfold := foldl_xor octets (0 ^^^ x)
  rw [UInt8.zero_xor] at hfold
  unfold xorSum
  rw [List.foldl_cons, UInt8.zero_xor]
  exact hfold

theorem xorSum_append (octets octets' : List UInt8) :
    xorSum (octets ++ octets') = xorSum octets ^^^ xorSum octets' := by
  induction octets with
  | nil => simp [xorSum]
  | cons x octets ih => rw [List.cons_append, xorSum_cons, xorSum_cons, ih, UInt8.xor_assoc]

/-- A message that ends in its checksum. -/
theorem xorSum_closed (octets : List UInt8) : xorSum (octets ++ [xorSum octets]) = 0 := by
  rw [xorSum_append, xorSum_cons]
  simp [xorSum]

/-- What one octet more or less does. -/
theorem xorSum_set (octets : List UInt8) {i : Nat} (hi : i < octets.length) (a : UInt8) :
    xorSum (octets.set i a) = xorSum octets ^^^ (octets[i] ^^^ a) := by
  induction octets generalizing i with
  | nil => exact absurd hi (Nat.not_lt_zero i)
  | cons x octets ih =>
    cases i with
    | zero =>
      rw [List.set_cons_zero, xorSum_cons, xorSum_cons, List.getElem_cons_zero,
        UInt8.xor_comm x (xorSum octets), UInt8.xor_assoc, ← UInt8.xor_assoc x x a]
      simp [UInt8.xor_comm]
    | succ i =>
      rw [List.set_cons_succ, xorSum_cons, xorSum_cons, List.getElem_cons_succ,
        ih (Nat.lt_of_succ_lt_succ hi), UInt8.xor_assoc]

/-- A changed octet changes the checksum. -/
theorem xorSum_set_eq_iff (octets : List UInt8) {i : Nat} (hi : i < octets.length) (a : UInt8) :
    xorSum (octets.set i a) = xorSum octets ↔ a = octets[i] := by
  rw [xorSum_set octets hi]
  constructor
  · intro h
    have hzero : octets[i] ^^^ a = 0 := by
      have hcancel := congrArg (xorSum octets ^^^ ·) h
      simpa [← UInt8.xor_assoc] using hcancel
    exact (UInt8.xor_eq_zero_iff.mp hzero).symm
  · rintro rfl
    simp

end Checksum
