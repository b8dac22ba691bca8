import Ptpd.Lib.MachineInt

/-! # Checked signed arithmetic

    A signed operation of the program has no defined result outside its type.
    `checkS w x` is the exact result `x` where it is a `w`-bit value, and `none`
    where the operation overflows; a computation that ends with `some` has met
    no overflow on its way.
-/

namespace MachineInt

variable {w : Nat} {x y : Int}

def checkS (w : Nat) (x : Int) : Option Int := if SRange w x then some x else none

@[simp] theorem checkS_of_range (h : SRange w x) : checkS w x = some x := if_pos h

theorem checkS_eq_some : checkS w x = some y ↔ SRange w x ∧ x = y := by
  unfold checkS
  split
  · next h => exact ⟨fun heq => ⟨h, Option.some.inj heq⟩, fun heq => congrArg some heq.2⟩
  · next h => exact ⟨fun heq => (Option.some_ne_none y heq.symm).elim, fun heq => (h heq.1).elim⟩

theorem checkS_32 (hlo : -2147483648 ≤ x) (hhi : x < 2147483648) : checkS 32 x = some x :=
  checkS_of_range ⟨by norm_num; exact hlo, by norm_num; exact hhi⟩

theorem checkS_64 (hlo : -9223372036854775808 ≤ x) (hhi : x < 9223372036854775808) :
    checkS 64 x = some x :=
  checkS_of_range ⟨by norm_num; exact hlo, by norm_num; exact hhi⟩

end MachineInt
